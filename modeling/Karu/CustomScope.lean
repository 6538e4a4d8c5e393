/-
# `Karu.CustomScope` — whom a custom credential serves

The callback of a custom provider chooses the prefix its credential is good for.
A later call is answered with the entry that has the longest prefix of the
call's path, found by going through a hash map, which also has the entries of
native scopes and of other kinds in it.

What is found does not depend on the order the map is gone through in: two
prefixes of one path that are equally long are the same, and an entry's key is
made of its prefix (`findReusable_perm`).  A credential whose prefix is empty
or does not contain the path it was loaded for never gets in, nor does one that
has expired (`custom_cache_scope`).
-/
import Karu.Precedence
import Karu.Invalidation

namespace Karu

open Base

namespace CredentialCache

/-! ## What is let in -/

/-- The prefix of a credential, if it has one, contains the path it was loaded for. -/
def Within (target : Target) (value : ProviderCredentials) : Prop :=
  match target with
  | .native _ _ => True
  | .custom _ path => value.cachePrefix = [] ∨ pathPrefixMatches path value.cachePrefix = true

theorem checkPrefix_within {kind : CredentialsKind} {path : Text} {r : LoadResult}
    {v : ProviderCredentials} (h : Cache.checkPrefix path r = .ok v) :
    Within (.custom kind path) v := by
  cases r with
  | error e => cases h
  | ok value =>
      simp only [Cache.checkPrefix] at h
      split at h
      · rename_i hempty
        cases h
        exact .inl (List.isEmpty_iff.mp hempty)
      · split at h
        · rename_i hmatches
          cases h
          exact .inr hmatches
        · cases h

theorem settle_within {target : Target} {ended : LoadEnd} {at_ : Int} {v : ProviderCredentials}
    (h : Cache.settle target ended at_ = .ok v) : Within target v := by
  cases target with
  | native kind scope => trivial
  | custom kind path =>
      cases ended with
      | result r =>
          simp only [Cache.settle] at h
          split at h
          · cases h
          · rename_i value hvalue
            split at h
            · cases h
            · cases h
              exact checkPrefix_within hvalue
      | badAlloc => cases h
      | exception what => cases h
      | unknown => cases h

/-- Keys are unique; what is loaded, and what is stored, is within its target. -/
structure Contained (s : Cache) : Prop where
  nodup : (s.entries.map (·.1)).Nodup
  loaded : ∀ {i c f v at_}, s.call i = some c → c.phase = .loaded f (.ok v) at_ → Within c.target v
  stored : ∀ {item fl}, item ∈ s.entries → s.flight item.2.flight = some fl →
    Within fl.target item.2.credentials

theorem nodup_insertOrAssign {entries : List (Text × Entry)} (h : (entries.map (·.1)).Nodup)
    (key : Text) (entry : Entry) :
    ((Cache.insertOrAssign entries key entry).map (·.1)).Nodup := by
  rw [Cache.insertOrAssign, List.map_cons, List.nodup_cons]
  refine ⟨?_, h.sublist (List.filter_sublist.map _)⟩
  intro hmem
  obtain ⟨item, hitem, hkey⟩ := List.mem_map.mp hmem
  exact of_decide_eq_true (List.mem_filter.mp hitem).2 hkey

theorem nodup_store {s : Cache} (h : (s.entries.map (·.1)).Nodup) (f : Nat) (fl : Flight)
    (r : LoadResult) (at_ : Int) (room : Bool) :
    ((s.store f fl r at_ room).map (·.1)).Nodup := by
  unfold Cache.store
  split
  · exact h
  · split
    · exact h
    · split
      · exact h
      · exact nodup_insertOrAssign h _ _

section Steps

variable {scope : Target → Prop} {n : Nat} {s : Cache}

/-- A call moves to a phase in which it has nothing loaded. -/
theorem Contained.move (h : Contained s) {id : Nat} {c : Call} (hc : s.call id = some c)
    {ph : Phase} (hph : ∀ f v at_, ph = .loaded f (.ok v) at_ → Within c.target v) :
    Contained (s.move id ph) where
  nodup := h.nodup
  stored := h.stored
  loaded := by
    intro i d f v at_ hd hphase
    rcases Cache.call_move hd with ⟨rfl, e, he, rfl⟩ | ⟨-, hd⟩
    · cases hc.symm.trans he
      exact hph f v at_ hphase
    · exact h.loaded hd hphase

theorem Contained.stepped (h : Contained s) (hinv : Inv scope n s) {e : Event} {s₁ : Cache}
    (hs : Cache.Stepped s e s₁) : Contained s₁ := by
  cases hs with
  | tick later => exact { h with }
  | call target =>
      refine { h with loaded := ?_ }
      intro i c f v at_ hc hphase
      dsimp only at hc
      split at hc
      · cases hc
        cases hphase
      · exact h.loaded hc hphase
  | cached hc _ _ => exact h.move hc (fun f v at_ heq => by cases heq)
  | joins hc _ _ _ => exact h.move hc (fun f v at_ heq => by cases heq)
  | @takesOff id c hc hchecked _ _ =>
      refine { nodup := h.nodup, loaded := ?_, stored := ?_ }
      · intro i d f v at_ hd hphase
        rcases call_takeOff hd with ⟨rfl, e, he, rfl⟩ | ⟨-, hd⟩
        · cases hphase
        · exact h.loaded hd hphase
      · intro item fl hitem hfl
        rcases flight_takeOff hfl with ⟨hnew, -⟩ | ⟨-, hfl⟩
        · -- the flights of entries are older
          obtain ⟨fl', hstocked⟩ := hinv.stocked hitem
          exact absurd hnew (Nat.ne_of_lt (hinv.listing.made hstocked.flight))
        · exact h.stored hitem hfl
  | loads hc _ =>
      refine h.move hc ?_
      intro f v at_ heq
      exact settle_within (Phase.loaded.inj heq).2.1
  | @publishes id f c fl result loadedAt room hc hphase hfl =>
      refine { nodup := nodup_store h.nodup f fl result loadedAt room, loaded := ?_, stored := ?_ }
      · intro i d g v at_ hd hloaded
        rcases call_publish hd with ⟨rfl, e, he, rfl⟩ | ⟨-, hd⟩
        · cases hloaded
        · exact h.loaded hd hloaded
      · intro item fl' hitem hfl'
        -- the flight keeps its target, done or not
        obtain ⟨fl₀, hfl₀, htarget⟩ :
            ∃ fl₀, s.flight item.2.flight = some fl₀ ∧ fl'.target = fl₀.target := by
          rcases flight_publish hfl' with ⟨hf, rfl⟩ | ⟨-, hfl'⟩
          · exact ⟨fl, hf ▸ hfl, rfl⟩
          · exact ⟨fl', hfl', rfl⟩
        rw [htarget]
        rcases mem_store hitem with hitem | ⟨v, key, refreshStatic, rfl, -, -, -, rfl⟩
        · exact h.stored hitem hfl₀
        · have hstand := hinv.standing hc
          rw [hphase] at hstand
          cases hstand with
          | loaded hfl' _ hsame =>
              cases hfl₀.symm.trans hfl'
              exact hsame ▸ h.loaded hc hphase
  | wakes hc _ _ _ _ => exact h.move hc (fun f v at_ heq => by cases heq)
  | invalidates target =>
      refine { h with nodup := ?_, stored := ?_ }
      · exact h.nodup.sublist (List.filter_sublist.map _)
      · intro item fl hitem hfl
        have hmem := (List.mem_filter.mp hitem).1
        rcases flight_invalidate hfl with ⟨-, fl₀, hfl₀, rfl⟩ | ⟨-, hfl⟩
        · exact (h.stored hmem hfl₀ :)
        · exact h.stored hmem hfl

end Steps

/-- Nothing is in scope of no invalidation. -/
theorem timely_nothing (s : Cache) (e : Event) : Timely (fun _ => False) s e := by
  cases e with
  | publish id room =>
      intro c f v at_ fl key refreshStatic _ _ _ _ _ _ t m _ hscope
      exact hscope.elim
  | _ => trivial

theorem contained_start (now : Int) : Contained (system now).start where
  nodup := List.nodup_nil
  loaded := fun h => by cases h
  stored := fun h => by cases h

theorem reachable_contained {now : Int} {s : Cache}
    (h : (system now).Reachable System.Anything s) :
    Inv (fun _ => False) s.events s ∧ Contained s := by
  refine h.invariant (I := fun s => Inv (fun _ => False) s.events s ∧ Contained s)
    ⟨inv_start _ now, contained_start now⟩ ?_
  rintro s s' e _ ⟨hinv, hcontained⟩ _ hstep
  obtain ⟨s₁, hs₁, rfl⟩ := Cache.step_stepped hstep
  exact ⟨{ hinv.stepped hs₁ (timely_nothing s e) with }, { hcontained.stepped hinv hs₁ with }⟩

/-! ## What is found -/

/-- The entry is one of the kind, loaded for a path that its prefix contains, and it answers for
this path at this time. -/
structure Serves (s : Cache) (kind : CredentialsKind) (path : Text) (at_ : Int)
    (item : Text × Entry) : Prop where
  key_eq : item.1 =
    credentialKey (credentialFamily (text "custom") kind) item.2.credentials.cachePrefix
  own : ∃ fl loadedFor, s.flight item.2.flight = some fl ∧ fl.target = .custom kind loadedFor ∧
    fl.result = some (.ok item.2.credentials) ∧
    pathPrefixMatches loadedFor item.2.credentials.cachePrefix = true
  contains : pathPrefixMatches path item.2.credentials.cachePrefix = true
  due : at_ < item.2.refreshAt
  unexpired : Unexpired item.2.credentials at_

section Found

variable {s : Cache} {kind : CredentialsKind} {path : Text} {at_ : Int}

/-- What stands behind an entry whose key begins like those of a custom provider. -/
theorem stocked_custom {scope : Target → Prop} (hinv : Inv scope s.events s) (h : Contained s)
    {item : Text × Entry} (hitem : item ∈ s.entries)
    (hfamily : (credentialFamily (text "custom") kind).isPrefixOf item.1 = true) :
    item.2.credentials.cachePrefix ≠ [] ∧
      item.1 = credentialKey (credentialFamily (text "custom") kind)
        item.2.credentials.cachePrefix ∧
      ∃ fl loadedFor, s.flight item.2.flight = some fl ∧ fl.target = .custom kind loadedFor ∧
        fl.result = some (.ok item.2.credentials) ∧
        pathPrefixMatches loadedFor item.2.credentials.cachePrefix = true := by
  obtain ⟨fl, hstocked⟩ := hinv.stocked hitem
  obtain ⟨refreshStatic, hstored, -⟩ := hstocked.stored
  have hwithin := h.stored hitem hstocked.flight
  have hresult := hstocked.result
  have hflight := hstocked.flight
  obtain ⟨target, begun, done, invalidated, result⟩ := fl
  cases target with
  | native kind' scope' =>
      simp only [Cache.storedUnder] at hstored
      split at hstored
      · obtain ⟨hkey, -⟩ := Prod.mk.inj (Option.some.inj hstored)
        rw [← hkey] at hfamily
        obtain ⟨rest, hrest⟩ := List.isPrefixOf_iff_prefix.mp hfamily
        exact (family_ne _ _ _ _ hrest.symm).elim
      · cases hstored
  | custom kind' loadedFor =>
      simp only [Cache.storedUnder] at hstored
      split at hstored
      · cases hstored
      · rename_i hpre
        obtain ⟨hkey, -⟩ := Prod.mk.inj (Option.some.inj hstored)
        rw [← hkey] at hfamily
        obtain rfl := family_of_isPrefixOf hfamily
        have hne : item.2.credentials.cachePrefix ≠ [] := by simpa using hpre
        exact ⟨hne, hkey.symm, _, loadedFor, hflight, rfl, hresult, hwithin.resolve_left hne⟩

theorem current_iff {scope : Target → Prop} (hinv : Inv scope s.events s) (h : Contained s)
    {item : Text × Entry} (hitem : item ∈ s.entries) :
    Cache.current (.custom kind path) path at_ item = true ↔ Serves s kind path at_ item := by
  rw [Cache.current, Bool.and_eq_true, Bool.and_eq_true, reusable_iff]
  constructor
  · rintro ⟨⟨hfamily, hcontains⟩, hdue, hunexpired⟩
    obtain ⟨-, hkey, hown⟩ := stocked_custom hinv h hitem hfamily
    exact ⟨hkey, hown, hcontains, hdue, hunexpired⟩
  · intro hserves
    refine ⟨⟨?_, hserves.contains⟩, hserves.due, hserves.unexpired⟩
    rw [hserves.key_eq]
    exact List.isPrefixOf_iff_prefix.mpr (List.prefix_append _ _)

/-- Prefixes of one path are told apart by their lengths, and entries by their prefixes. -/
theorem Serves.eq_of_length (h : Contained s) {item item' : Text × Entry} (hitem : item ∈ s.entries)
    (hitem' : item' ∈ s.entries) (hserves : Serves s kind path at_ item)
    (hserves' : Serves s kind path at_ item')
    (hlength : item.2.credentials.cachePrefix.length = item'.2.credentials.cachePrefix.length) :
    item = item' := by
  have hprefixes := eq_of_matches hserves.contains hserves'.contains hlength
  refine List.inj_on_of_nodup_map h.nodup hitem hitem' ?_
  rw [hserves.key_eq, hserves'.key_eq, hprefixes]

/-- The order of the map does not matter. -/
theorem findReusable_perm {scope : Target → Prop} (hinv : Inv scope s.events s) (h : Contained s)
    {entries : List (Text × Entry)} (hperm : entries.Perm s.entries) :
    Cache.findReusable (.custom kind path) path at_ entries =
      Cache.findReusable (.custom kind path) path at_ s.entries := by
  cases hleft : Cache.findReusable (.custom kind path) path at_ entries with
  | none =>
      have hnone := Cache.findReusable_none hleft
      cases hright : Cache.findReusable (.custom kind path) path at_ s.entries with
      | none => rfl
      | some b =>
          obtain ⟨⟨key, hmem, hcurrent⟩, -⟩ := Cache.findReusable_some hright
          rw [hnone _ (hperm.mem_iff.mpr hmem)] at hcurrent
          cases hcurrent
  | some a =>
      obtain ⟨⟨key, hmem, hcurrent⟩, hlongest⟩ := Cache.findReusable_some hleft
      cases hright : Cache.findReusable (.custom kind path) path at_ s.entries with
      | none =>
          rw [Cache.findReusable_none hright _ (hperm.mem_iff.mp hmem)] at hcurrent
          cases hcurrent
      | some b =>
          obtain ⟨⟨key', hmem', hcurrent'⟩, hlongest'⟩ := Cache.findReusable_some hright
          have hle := hlongest' _ (hperm.mem_iff.mp hmem) hcurrent
          have hge := hlongest _ (hperm.mem_iff.mpr hmem') hcurrent'
          have hsame := Serves.eq_of_length h (hperm.mem_iff.mp hmem) hmem'
            ((current_iff hinv h (hperm.mem_iff.mp hmem)).mp hcurrent)
            ((current_iff hinv h hmem').mp hcurrent') (Nat.le_antisymm hle hge)
          rw [(Prod.mk.inj hsame).2]

end Found

/-! ## What is kept out -/

/-- No prefix, a prefix that does not contain the path, or expired when the load has ended. -/
def Unfit (path : Text) (value : ProviderCredentials) (loadedAt : Int) : Prop :=
  value.cachePrefix = [] ∨ pathPrefixMatches path (canonicalVsiPath value.cachePrefix) = false ∨
    ¬ Unexpired value loadedAt

/-- An unfit credential ends in an error, or without a prefix. -/
theorem settle_unfit {kind : CredentialsKind} {path : Text} {value : ProviderCredentials}
    {loadedAt : Int} (h : Unfit path value loadedAt) :
    ∀ v, Cache.settle (.custom kind path) (.result (.ok value)) loadedAt = .ok v →
      v.cachePrefix = [] := by
  intro v hv
  have hunexpired := settle_unexpired hv
  simp only [Cache.settle, Cache.checkPrefix] at hv
  by_cases hempty : value.cachePrefix.isEmpty = true
  · rw [if_pos hempty] at hv
    dsimp only at hv
    split at hv
    · cases hv
    · cases hv
      exact List.isEmpty_iff.mp hempty
  · rw [if_neg hempty] at hv
    split at hv
    · cases hv
    · rename_i hchecked
      split at hchecked
      · rename_i hmatches
        cases hchecked
        split at hv
        · cases hv
        · cases hv
          -- the prefix is there and contains the path, so the credential has expired
          rcases h with h | h | h
          · exact absurd (List.isEmpty_iff.mpr h) hempty
          · rw [hmatches] at h
            cases h
          · exact absurd hunexpired h
      · cases hchecked

theorem store_unfit {s : Cache} {f : Nat} {fl : Flight} {kind : CredentialsKind} {path : Text}
    {value : ProviderCredentials} {loadedAt : Int} {room : Bool}
    (htarget : fl.target = .custom kind path) (h : Unfit path value loadedAt) :
    s.store f fl (Cache.settle (.custom kind path) (.result (.ok value)) loadedAt) loadedAt room =
      s.entries := by
  cases hsettle : Cache.settle (.custom kind path) (.result (.ok value)) loadedAt with
  | error e => rfl
  | ok v =>
      have hempty := settle_unfit h v hsettle
      simp [Cache.store, Cache.storedUnder, htarget, hempty]

/-! ## Every run -/

/-- What holds of the custom side of the cache. -/
structure CustomScope (s : Cache) : Prop where
  /-- A call that is answered from the cache has the entry with the longest prefix. -/
  answered : ∀ {e s' i c c' kind path r entry}, s.step e = some s' → s.call i = some c →
    c.phase = .checked → c.target = .custom kind path → s'.call i = some c' →
    c'.phase = .returned r (.cached entry) →
    r = .ok entry.credentials ∧ ∃ key, (key, entry) ∈ s.entries ∧
      Serves s kind path c.checkedAt (key, entry) ∧
      ∀ item ∈ s.entries, Serves s kind path c.checkedAt item → item ≠ (key, entry) →
        item.2.credentials.cachePrefix.length < entry.credentials.cachePrefix.length
  /-- It is the same in whatever order the map is gone through. -/
  unordered : ∀ {kind path at_ entries}, entries.Perm s.entries →
    Cache.findReusable (.custom kind path) path at_ entries = s.lookup (.custom kind path) at_
  /-- The entry of a custom provider has a prefix, which contains the path it was loaded for, and
  had not expired then. -/
  stored : ∀ {kind key entry}, (key, entry) ∈ s.entries →
    (credentialFamily (text "custom") kind).isPrefixOf key = true →
    entry.credentials.cachePrefix ≠ [] ∧ Unexpired entry.credentials entry.loadedAt ∧
      ∃ fl loadedFor, s.flight entry.flight = some fl ∧ fl.target = .custom kind loadedFor ∧
        fl.result = some (.ok entry.credentials) ∧
        pathPrefixMatches loadedFor entry.credentials.cachePrefix = true
  /-- The result of an unfit credential leaves the entries as they are. -/
  keptOut : ∀ {s' i c kind path f value loadedAt room}, s.call i = some c →
    c.target = .custom kind path → Unfit path value loadedAt →
    c.phase = .loaded f (Cache.settle c.target (.result (.ok value)) loadedAt) loadedAt →
    s.step (.publish i room) = some s' → s'.entries = s.entries

section

variable {scope : Target → Prop} {s : Cache}

/-- Only the first locked section answers from the cache. -/
theorem answered_of_stepped {e : Event} {s₁ : Cache} {i : Nat} {c c' : Call} {r : LoadResult}
    {entry : Entry} (hs : Cache.Stepped s e s₁) (hc : s.call i = some c)
    (hchecked : c.phase = .checked) (hc' : s₁.call i = some c')
    (hphase : c'.phase = .returned r (.cached entry)) :
    r = .ok entry.credentials ∧ s.lookup c.target c.checkedAt = some entry := by
  have hother : ∀ {id ph}, (s.move id ph).call i = some c' → (∀ r' en, ph ≠ .returned r' (.cached en)) →
      False := by
    intro id ph hmoved hne
    rcases Cache.call_move hmoved with ⟨rfl, d, hd, rfl⟩ | ⟨-, hd⟩
    · exact hne _ _ hphase
    · cases hc.symm.trans hd
      rw [hchecked] at hphase
      cases hphase
  cases hs with
  | tick later =>
      cases hc.symm.trans hc'
      rw [hchecked] at hphase
      cases hphase
  | call target =>
      dsimp only at hc'
      split at hc'
      · cases hc'
        cases hphase
      · cases hc.symm.trans hc'
        rw [hchecked] at hphase
        cases hphase
  | @cached id d en hd hdchecked hlookup =>
      rcases Cache.call_move hc' with ⟨rfl, d', hd', rfl⟩ | ⟨-, hd'⟩
      · cases hc.symm.trans hd
        cases hphase
        exact ⟨rfl, hlookup⟩
      · cases hc.symm.trans hd'
        rw [hchecked] at hphase
        cases hphase
  | joins => exact (hother hc' (by simp)).elim
  | takesOff => exact (hother hc' (by simp)).elim
  | loads => exact (hother hc' (by simp)).elim
  | publishes => exact (hother hc' (by simp)).elim
  | wakes => exact (hother hc' (by simp)).elim
  | invalidates target =>
      cases hc.symm.trans hc'
      rw [hchecked] at hphase
      cases hphase

end

/-- The custom side of the cache, in every run. -/
theorem custom_cache_scope {now : Int} {s : Cache}
    (h : (system now).Reachable System.Anything s) : CustomScope s := by
  obtain ⟨hinv, hcontained⟩ := reachable_contained h
  refine ⟨?_, fun hperm => findReusable_perm hinv hcontained hperm, ?_, ?_⟩
  · intro e s' i c c' kind path r entry hstep hc hchecked htarget hc' hphase
    obtain ⟨s₁, hs₁, rfl⟩ := Cache.step_stepped hstep
    obtain ⟨hr, hlookup⟩ := answered_of_stepped hs₁ hc hchecked hc' hphase
    rw [htarget] at hlookup
    obtain ⟨⟨key, hmem, hcurrent⟩, hlongest⟩ := Cache.findReusable_some hlookup
    have hserves := (current_iff hinv hcontained hmem).mp hcurrent
    refine ⟨hr, key, hmem, hserves, ?_⟩
    intro item hitem hother hne
    refine Nat.lt_of_le_of_ne (hlongest item hitem ((current_iff hinv hcontained hitem).mpr hother)) ?_
    intro hlength
    exact hne (Serves.eq_of_length hcontained hitem hmem hother hserves hlength)
  · intro kind key entry hmem hfamily
    obtain ⟨hne, -, hown⟩ := stocked_custom hinv hcontained hmem hfamily
    obtain ⟨fl, hstocked⟩ := hinv.stocked hmem
    exact ⟨hne, hstocked.unexpired, hown⟩
  · intro s' i c kind path f value loadedAt room hc htarget hunfit hphase hstep
    obtain ⟨s₁, hs₁, rfl⟩ := Cache.step_stepped hstep
    cases hs₁ with
    | @publishes _ g d fl _ _ _ hd hdphase hfl =>
        cases hc.symm.trans hd
        have hstand := hinv.standing hc
        rw [hdphase] at hstand
        cases hstand with
        | loaded hfl' _ hsame =>
            cases hfl.symm.trans hfl'
            obtain ⟨rfl, rfl, rfl⟩ := Phase.loaded.inj (hdphase.symm.trans hphase)
            rw [htarget]
            exact store_unfit (hsame.trans htarget) hunfit

/-- A credential for a whole bucket, which answers a later call for another object of it. -/
theorem custom_cache_scope_bucket :
    ∃ s, (system 0).run System.Anything (system 0).start
        [.call (.custom .aws (text "/vsis3/b/x")), .enter 0,
          .load 0 (.result (.ok { accessKeyId := text "wide", cachePrefix := text "s3://b" })),
          .publish 0 true, .invalidate (.custom .aws (text "/vsis3/c")),
          .call (.custom .aws (text "/vsis3/b/x/1")), .enter 1] = some s ∧ CustomScope s := by
  have hsome : ((system 0).run System.Anything (system 0).start
      [.call (.custom .aws (text "/vsis3/b/x")), .enter 0,
        .load 0 (.result (.ok { accessKeyId := text "wide", cachePrefix := text "s3://b" })),
        .publish 0 true, .invalidate (.custom .aws (text "/vsis3/c")),
        .call (.custom .aws (text "/vsis3/b/x/1")), .enter 1]).isSome = true := by decide +kernel
  obtain ⟨s, hs⟩ := Option.isSome_iff_exists.mp hsome
  exact ⟨s, hs, custom_cache_scope (System.Reachable.start.run hs)⟩

end CredentialCache

end Karu
