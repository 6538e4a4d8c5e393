/-
# `Karu.Precedence` — which value an option has

The builder is written to by calls, one option at a time, and asked later.  The
specification is in terms of the calls alone: what an option is now, below a
prefix or everywhere, is what the last call that wrote it said.  Rules, their
order and the spelling of names and prefixes do not occur in it.

`OptionValue` says which value a query has; the snapshot gives it
(`Written.optionValue`), and there is only one (`OptionValue.unique`).  So calls that
are reordered without reordering the writes to one and the same place give the
same answers.
-/
import Karu.CredentialScope

namespace Karu

open Base

/-! ## Calls -/

/-- A call of `set` or `set_path`; no value unsets. -/
inductive Write where
  | set (name : Text) (value : Option Text)
  | setPath (pre name : Text) (value : Option Text)
deriving DecidableEq

namespace Write

/-- What a call writes to: a canonical name, everywhere or below a canonical prefix. -/
def place : Write → Option Text × Text
  | set name _ => (none, canonicalOptionName name)
  | setPath pre name _ => (some (canonicalVsiPath pre), canonicalOptionName name)

/-- What it writes. -/
def value : Write → Option Text
  | set _ value => value
  | setPath _ _ value => value

/-- The call itself. -/
def perform (builder : ConfigBuilder) : Write → Except Text ConfigBuilder
  | set name value => builder.set name value
  | setPath pre name value => builder.setPath pre name value

/-- The value at a place after some calls: what the last one to write it said. -/
def current (writes : List Write) (place : Option Text × Text) : Option Text :=
  (writes.filter (·.place = place)).getLast?.bind value

theorem current_append (writes : List Write) (w : Write) (place : Option Text × Text) :
    current (writes ++ [w]) place = if w.place = place then w.value else current writes place := by
  simp only [current, List.filter_append]
  by_cases h : w.place = place <;> simp [h]

end Write

/-- The calls one after the other; the first that fails ends them. -/
def performAll (builder : ConfigBuilder) (writes : List Write) : Except Text ConfigBuilder :=
  writes.foldlM Write.perform builder

/-! ## What the calls mean -/

/-- The environment value of a canonical name: that of the first of its spellings that is set. -/
def environmentValue (includeEnvironment : Bool) (getenv : Text → Option Text) (name : Text) :
    Option Text :=
  if includeEnvironment then
    ConfigOptions.environment.findSome? fun spelling =>
      if canonicalOptionName spelling = name then (getenv spelling).filter (!·.isEmpty) else none
  else none

/-- The prefix matches the path and has the option now. -/
def Write.Offers (writes : List Write) (path name pre : Text) : Prop :=
  pathPrefixMatches path pre = true ∧ (Write.current writes (some pre, name)).isSome = true

/-- The value of a query, for a canonical path and name: of the longest prefix that offers one,
else the explicit one, else the environment's, else the fallback. -/
inductive OptionValue (writes : List Write) (environment : Option Text) (path name fallback : Text) :
    Text → Prop
  | rule {pre value : Text} : pathPrefixMatches path pre = true →
      Write.current writes (some pre, name) = some value →
      (∀ other, Write.Offers writes path name other → other.length ≤ pre.length) →
      OptionValue writes environment path name fallback value
  | explicit {value : Text} : (∀ pre, ¬ Write.Offers writes path name pre) →
      Write.current writes (none, name) = some value →
      OptionValue writes environment path name fallback value
  | environment {value : Text} : (∀ pre, ¬ Write.Offers writes path name pre) →
      Write.current writes (none, name) = none → environment = some value →
      OptionValue writes environment path name fallback value
  | fallback : (∀ pre, ¬ Write.Offers writes path name pre) →
      Write.current writes (none, name) = none → environment = none →
      OptionValue writes environment path name fallback fallback

/-- Of two prefixes of one path that match, neither is as long as the other unless they are the
same. -/
theorem eq_of_matches {path pre other : Text} (h : pathPrefixMatches path pre = true)
    (h' : pathPrefixMatches path other = true) (hlength : pre.length = other.length) :
    pre = other := by
  rw [pathPrefixMatches, Bool.and_eq_true, List.isPrefixOf_iff_prefix] at h h'
  rw [List.prefix_iff_eq_take.mp h.1, List.prefix_iff_eq_take.mp h'.1, hlength]

theorem OptionValue.unique {writes : List Write} {environment : Option Text}
    {path name fallback x y : Text} (hx : OptionValue writes environment path name fallback x)
    (hy : OptionValue writes environment path name fallback y) : x = y := by
  cases hx with
  | @rule pre _ hmatches hcurrent hlongest =>
      have hoffers : Write.Offers writes path name pre := ⟨hmatches, by rw [hcurrent]; rfl⟩
      cases hy with
      | @rule other _ hmatches' hcurrent' hlongest' =>
          have hoffers' : Write.Offers writes path name other :=
            ⟨hmatches', by rw [hcurrent']; rfl⟩
          have hsame := eq_of_matches hmatches hmatches'
            (Nat.le_antisymm (hlongest' _ hoffers) (hlongest _ hoffers'))
          rw [hsame, hcurrent'] at hcurrent
          exact (Option.some.inj hcurrent).symm
      | explicit hnone => exact (hnone _ hoffers).elim
      | environment hnone => exact (hnone _ hoffers).elim
      | fallback hnone => exact (hnone _ hoffers).elim
  | explicit hnone hcurrent =>
      cases hy with
      | rule hmatches hcurrent' => exact (hnone _ ⟨hmatches, by rw [hcurrent']; rfl⟩).elim
      | explicit _ hcurrent' => exact Option.some.inj (hcurrent.symm.trans hcurrent')
      | environment _ hcurrent' => cases hcurrent.symm.trans hcurrent'
      | fallback _ hcurrent' => cases hcurrent.symm.trans hcurrent'
  | environment hnone hcurrent henv =>
      cases hy with
      | rule hmatches hcurrent' => exact (hnone _ ⟨hmatches, by rw [hcurrent']; rfl⟩).elim
      | explicit _ hcurrent' => cases hcurrent.symm.trans hcurrent'
      | environment _ _ henv' => exact Option.some.inj (henv.symm.trans henv')
      | fallback _ _ henv' => cases henv.symm.trans henv'
  | fallback hnone hcurrent henv =>
      cases hy with
      | rule hmatches hcurrent' => exact (hnone _ ⟨hmatches, by rw [hcurrent']; rfl⟩).elim
      | explicit _ hcurrent' => cases hcurrent.symm.trans hcurrent'
      | environment _ _ henv' => cases henv.symm.trans henv'
      | fallback => rfl

/-! ## What the builder has written down -/

/-- What the rule for a prefix has, if there is one. -/
def ruleValue (paths : List PathOptions) (pre name : Text) : Option Text :=
  (paths.find? (·.pathPrefix = pre)).bind (·.values name)

theorem ruleValue_assignPath (pre name : Text) (value : Option Text) (pre' name' : Text)
    (paths : List PathOptions) :
    ruleValue (ConfigBuilder.assignPath pre name value paths) pre' name' =
      if pre' = pre ∧ name' = name then value else ruleValue paths pre' name' := by
  induction paths with
  | nil =>
      by_cases hpre : pre = pre'
      · by_cases hname : name' = name <;>
          simp [ruleValue, ConfigBuilder.assignPath, OptionMap.assign, OptionMap.empty, hpre, hname]
      · have hne : ¬ pre' = pre := fun heq => hpre heq.symm
        simp [ruleValue, ConfigBuilder.assignPath, hpre, hne]
  | cons rule paths ih =>
      rw [ruleValue] at ih ⊢
      by_cases hrule : rule.pathPrefix = pre
      · rw [ConfigBuilder.assignPath, if_pos hrule]
        by_cases hpre : pre = pre'
        · by_cases hname : name' = name <;>
            simp [ruleValue, OptionMap.assign, hrule, hpre, hname]
        · have hne : ¬ pre' = pre := fun heq => hpre heq.symm
          simp [ruleValue, hrule, hpre, hne]
      · rw [ConfigBuilder.assignPath, if_neg hrule]
        by_cases hpre : rule.pathPrefix = pre'
        · have hne : ¬ pre' = pre := fun heq => hrule (hpre.trans heq)
          simp [ruleValue, hpre, hne]
        · simpa [ruleValue, hpre] using ih

/-- A rule is the one that is found under its prefix. -/
theorem ruleValue_of_mem {paths : List PathOptions} (hdistinct : PathOptions.Distinct paths)
    {rule : PathOptions} (hrule : rule ∈ paths) (name : Text) :
    ruleValue paths rule.pathPrefix name = rule.values name := by
  obtain ⟨found, hfound⟩ : ∃ found, paths.find? (·.pathPrefix = rule.pathPrefix) = some found := by
    rw [← Option.isSome_iff_exists, List.find?_isSome]
    exact ⟨rule, hrule, by simp⟩
  have hsame : found = rule := by
    refine List.inj_on_of_nodup_map hdistinct.nodup (List.mem_of_find?_eq_some hfound) hrule ?_
    simpa using List.find?_some hfound
  rw [ruleValue, hfound, hsame]
  rfl

/-- The builder's layers are what the calls say. -/
structure Written (writes : List Write) (explicit : OptionMap) (paths : List PathOptions) :
    Prop where
  explicit_eq : ∀ name, explicit name = Write.current writes (none, name)
  rule_eq : ∀ pre name, ruleValue paths pre name = Write.current writes (some pre, name)

/-- One call. -/
theorem Written.perform {writes : List Write} {builder builder' : ConfigBuilder} {w : Write}
    (h : Written writes builder.explicit builder.paths) (hw : w.perform builder = .ok builder') :
    Written (writes ++ [w]) builder'.explicit builder'.paths ∧
      builder'.environment = builder.environment := by
  cases w with
  | set name value =>
      simp only [Write.perform, ConfigBuilder.set] at hw
      split_ifs at hw
      cases hw
      refine ⟨⟨fun other => ?_, fun pre other => ?_⟩, rfl⟩
      · show (if other = canonicalOptionName name then value else builder.explicit other) = _
        rw [Write.current_append, h.explicit_eq]
        by_cases hother : canonicalOptionName name = other
        · simp [hother, Write.place, Write.value]
        · have hne : ¬ other = canonicalOptionName name := fun heq => hother heq.symm
          simp [hother, hne, Write.place]
      · rw [Write.current_append, if_neg (by simp [Write.place])]
        exact h.rule_eq pre other
  | setPath pre name value =>
      simp only [Write.perform, ConfigBuilder.setPath] at hw
      split_ifs at hw
      cases hw
      refine ⟨⟨fun other => ?_, fun pre' other => ?_⟩, rfl⟩
      · rw [Write.current_append, if_neg (by simp [Write.place])]
        exact h.explicit_eq other
      · rw [Write.current_append, ruleValue_assignPath, h.rule_eq]
        by_cases hplace : canonicalVsiPath pre = pre' ∧ canonicalOptionName name = other
        · simp [hplace.1, hplace.2, Write.place, Write.value]
        · have hne : ¬ (pre' = canonicalVsiPath pre ∧ other = canonicalOptionName name) :=
            fun heq => hplace ⟨heq.1.symm, heq.2.symm⟩
          rw [if_neg hne, if_neg (by simpa [Write.place] using hplace)]

/-- All of them. -/
theorem Written.performAll {builder builder' : ConfigBuilder} :
    ∀ {rest writes : List Write}, Written writes builder.explicit builder.paths →
      performAll builder rest = .ok builder' →
      Written (writes ++ rest) builder'.explicit builder'.paths ∧
        builder'.environment = builder.environment := by
  intro rest
  induction rest generalizing builder with
  | nil =>
      intro writes h hall
      cases hall
      rw [List.append_nil]
      exact ⟨h, rfl⟩
  | cons w rest ih =>
      intro writes h hall
      rw [Karu.performAll, List.foldlM_cons] at hall
      obtain ⟨middle, hw, hrest⟩ := ok_of_bind hall
      obtain ⟨hmiddle, henv⟩ := h.perform hw
      obtain ⟨hdone, henv'⟩ := ih hmiddle hrest
      rw [List.append_assoc] at hdone
      exact ⟨hdone, henv'.trans henv⟩

/-! ## The snapshot -/

/-- The environment layer has the first spelling that is set. -/
theorem environmentLayer_fold (getenv : Text → Option Text) (name : Text) (spellings : List Text)
    (values : OptionMap) :
    spellings.foldl (readEnvironment getenv) values name =
      (values name).or (spellings.findSome? fun spelling =>
        if canonicalOptionName spelling = name then (getenv spelling).filter (!·.isEmpty)
        else none) := by
  induction spellings generalizing values with
  | nil => simp
  | cons spelling spellings ih =>
      have hone : readEnvironment getenv values spelling name =
          (values name).or (if canonicalOptionName spelling = name then
            (getenv spelling).filter (!·.isEmpty) else none) := by
        unfold readEnvironment
        cases hget : getenv spelling with
        | none => simp
        | some value =>
            by_cases hempty : value.isEmpty = true
            · simp [Option.filter, hempty]
            · by_cases hname : canonicalOptionName spelling = name
              · cases hvalue : values name <;>
                  simp [Option.filter, hempty, OptionMap.tryEmplace, OptionMap.assign, hname, hvalue]
              · have hne : ¬ name = canonicalOptionName spelling := fun heq => hname heq.symm
                cases hvalue : values (canonicalOptionName spelling) <;>
                  simp [hempty, OptionMap.tryEmplace, OptionMap.assign, hname, hne, hvalue]
      rw [List.foldl_cons, ih, hone, List.findSome?_cons, Option.or_assoc]
      congr 1
      cases (if canonicalOptionName spelling = name then
        (getenv spelling).filter (!·.isEmpty) else none) <;> rfl

theorem environment_new (includeEnvironment : Bool) (getenv : Text → Option Text) (name : Text) :
    (ConfigBuilder.new includeEnvironment getenv).environment name =
      environmentValue includeEnvironment getenv name := by
  cases includeEnvironment with
  | false => rfl
  | true =>
      show environmentLayer getenv name = _
      rw [environmentLayer, environmentLayer_fold]
      rfl

/-- What `freeze` copies. -/
def ConfigBuilder.snapshot (builder : ConfigBuilder) : ConfigSnapshot where
  environment := builder.environment
  explicit := builder.explicit
  paths := builder.paths
  homeDirectory := builder.homeDirectory
  discoverDefaultCredentials := builder.discoverDefaultCredentials
  distinct := builder.distinct

/-- `freeze` succeeds where every layer passes its checks and every number can be read. -/
theorem freeze_ok_iff {builder : ConfigBuilder} {config : ConfigSnapshot} :
    builder.freeze = .ok config ↔
      (validateValues builder.environment = .ok () ∧ validateValues builder.explicit = .ok () ∧
        (∀ rule ∈ builder.paths, checkRule rule = .ok ()) ∧
        ∀ number ∈ clientNumbers, checkNumber builder.snapshot number = .ok ()) ∧
      config = builder.snapshot := by
  have hfreeze : builder.freeze = (do
      validateValues builder.environment
      validateValues builder.explicit
      builder.paths.forM checkRule
      clientNumbers.forM (checkNumber builder.snapshot)
      return builder.snapshot) := rfl
  rw [hfreeze, ← forM_ok_iff, ← forM_ok_iff]
  cases validateValues builder.environment with
  | error e => simp [bind, Except.bind]
  | ok _ =>
      cases validateValues builder.explicit with
      | error e => simp [bind, Except.bind]
      | ok _ =>
          cases builder.paths.forM checkRule with
          | error e => simp [bind, Except.bind]
          | ok _ =>
              cases clientNumbers.forM (checkNumber builder.snapshot) with
              | error e => simp [bind, Except.bind]
              | ok _ => simp [bind, Except.bind, pure, Except.pure, eq_comm]

/-- The value `option` finds, if any layer has one. -/
def ConfigSnapshot.found (config : ConfigSnapshot) (path name : Text) : Option Text :=
  ((bestRule config.paths path name).bind (·.values name)).or
    ((config.explicit name).or (config.environment name))

theorem option_eq_found (config : ConfigSnapshot) (path name fallback : Text) :
    config.option path name fallback =
      (config.found (canonicalVsiPath path) (canonicalOptionName name)).getD fallback := by
  simp only [ConfigSnapshot.option, ConfigSnapshot.found]
  cases (ConfigSnapshot.bestRule config.paths (canonicalVsiPath path)
      (canonicalOptionName name)).bind (·.values (canonicalOptionName name)) with
  | some value => rfl
  | none => cases config.explicit (canonicalOptionName name) <;> rfl

/-- A rule that supplies the option offers it, and the other way round. -/
theorem Written.offers_iff {writes : List Write} {explicit : OptionMap} {paths : List PathOptions}
    (h : Written writes explicit paths) (hdistinct : PathOptions.Distinct paths)
    {path name pre : Text} :
    Write.Offers writes path name pre ↔
      ∃ rule ∈ paths, rule.pathPrefix = pre ∧ ConfigSnapshot.Supplies path name rule := by
  rw [Write.Offers, ← h.rule_eq]
  constructor
  · rintro ⟨hmatches, hsome⟩
    obtain ⟨value, hvalue⟩ := Option.isSome_iff_exists.mp hsome
    obtain ⟨rule, hfind, hrule⟩ := Option.bind_eq_some_iff.mp hvalue
    have hpre : rule.pathPrefix = pre := by simpa using List.find?_some hfind
    exact ⟨rule, List.mem_of_find?_eq_some hfind, hpre, hpre ▸ hmatches, by rw [hrule]; rfl⟩
  · rintro ⟨rule, hrule, rfl, hsupplies⟩
    exact ⟨hsupplies.1, by rw [ruleValue_of_mem hdistinct hrule]; exact hsupplies.2⟩

/-- The snapshot answers as the calls say. -/
theorem Written.optionValue {writes : List Write} {config : ConfigSnapshot}
    (h : Written writes config.explicit config.paths) (path name fallback : Text) :
    OptionValue writes (config.environment name) path name fallback
      ((config.found path name).getD fallback) := by
  have hbest := ConfigSnapshot.bestRule_best config.paths path name
  have hlongest : ∀ other, Write.Offers writes path name other →
      ∃ best, ConfigSnapshot.bestRule config.paths path name = some best ∧
        other.length ≤ best.pathPrefix.length := by
    intro other hother
    obtain ⟨rule, hrule, rfl, hsupplies⟩ := (h.offers_iff config.distinct).mp hother
    exact hbest.longest rule hrule hsupplies
  rw [ConfigSnapshot.found]
  cases hrule : ConfigSnapshot.bestRule config.paths path name with
  | some best =>
      obtain ⟨hmem, hsupplies⟩ := hbest.mem best hrule
      obtain ⟨value, hvalue⟩ := Option.isSome_iff_exists.mp hsupplies.2
      rw [Option.bind_some, hvalue]
      refine @OptionValue.rule _ _ _ _ _ best.pathPrefix value hsupplies.1 ?_ ?_
      · rw [← h.rule_eq, ruleValue_of_mem config.distinct hmem, hvalue]
      · intro other hother
        obtain ⟨best', hbest', hle⟩ := hlongest other hother
        cases hrule.symm.trans hbest'
        exact hle
  | none =>
      have hnone : ∀ pre, ¬ Write.Offers writes path name pre := by
        intro pre hpre
        obtain ⟨best, hbest', -⟩ := hlongest pre hpre
        cases hrule.symm.trans hbest'
      rw [Option.bind_none, Option.none_or]
      have hexplicit := h.explicit_eq name
      cases hcase : config.explicit name with
      | some value => exact .explicit hnone (hexplicit.symm.trans hcase)
      | none =>
          rw [Option.none_or]
          cases henv : config.environment name with
          | some value => exact .environment hnone (hexplicit.symm.trans hcase) rfl
          | none => exact .fallback hnone (hexplicit.symm.trans hcase) rfl

/-! ## Reordering -/

/-- The same calls, and for every place its own writes in the same order. -/
def Reordered (writes writes' : List Write) : Prop :=
  writes.Perm writes' ∧
    ∀ place, writes.filter (·.place = place) = writes'.filter (·.place = place)

theorem Reordered.current_eq {writes writes' : List Write} (h : Reordered writes writes')
    (place : Option Text × Text) :
    Write.current writes' place = Write.current writes place := by
  rw [Write.current, Write.current, h.2 place]

/-- Whether a call succeeds is a matter of its arguments. -/
theorem Write.perform_ok (w : Write) {builder builder' : ConfigBuilder}
    (h : w.perform builder = .ok builder') (other : ConfigBuilder) :
    ∃ other', w.perform other = .ok other' := by
  cases w with
  | set name value =>
      simp only [Write.perform, ConfigBuilder.set] at h ⊢
      split_ifs at h ⊢
      exact ⟨_, rfl⟩
  | setPath pre name value =>
      simp only [Write.perform, ConfigBuilder.setPath] at h ⊢
      split_ifs at h ⊢
      exact ⟨_, rfl⟩

theorem performAll_ok {writes : List Write} {builder builder' : ConfigBuilder}
    (h : performAll builder writes = .ok builder') :
    ∀ w ∈ writes, ∃ b b', w.perform b = .ok b' := by
  induction writes generalizing builder with
  | nil =>
      intro w hw
      cases hw
  | cons w writes ih =>
      rw [performAll, List.foldlM_cons] at h
      obtain ⟨middle, hw, hrest⟩ := ok_of_bind h
      intro w' hw'
      rcases List.mem_cons.mp hw' with rfl | hw'
      · exact ⟨builder, middle, hw⟩
      · exact ih hrest w' hw'

theorem performAll_of_ok {writes : List Write} (h : ∀ w ∈ writes, ∃ b b', w.perform b = .ok b')
    (builder : ConfigBuilder) : ∃ builder', performAll builder writes = .ok builder' := by
  induction writes generalizing builder with
  | nil => exact ⟨builder, rfl⟩
  | cons w writes ih =>
      obtain ⟨b, b', hb⟩ := h w List.mem_cons_self
      obtain ⟨middle, hmiddle⟩ := w.perform_ok hb builder
      obtain ⟨builder', hrest⟩ := ih (fun w hw => h w (List.mem_cons_of_mem _ hw)) middle
      refine ⟨builder', ?_⟩
      rw [performAll, List.foldlM_cons, hmiddle]
      exact hrest

section

variable {writes writes' : List Write} {builder builder' : ConfigBuilder}

/-- Equal values pass the checks together. -/
theorem checkRule_eq_ok {rule rule' : PathOptions} (h : rule.values = rule'.values)
    (hok : checkRule rule = .ok ()) : checkRule rule' = .ok () := by
  rw [checkRule, ← h]
  rw [checkRule] at hok
  cases hvalid : validateValues rule.values with
  | ok _ => rfl
  | error wrong =>
      rw [hvalid] at hok
      cases hok

/-- What is written in two orders passes the checks of `freeze` together, and is found alike. -/
theorem Written.snapshot_alike (h : Written writes builder.explicit builder.paths)
    (h' : Written writes builder'.explicit builder'.paths)
    (henv : builder'.environment = builder.environment) {config : ConfigSnapshot}
    (hfreeze : builder.freeze = .ok config) :
    ∃ config', builder'.freeze = .ok config' ∧ ∀ path name fallback,
      config'.option path name fallback = config.option path name fallback := by
  obtain ⟨⟨hvalid, hexplicit, hrules, hnumbers⟩, rfl⟩ := freeze_ok_iff.mp hfreeze
  have hsame : builder'.explicit = builder.explicit :=
    funext fun name => (h'.explicit_eq name).trans (h.explicit_eq name).symm
  have hoption : ∀ path name fallback, builder'.snapshot.option path name fallback =
      builder.snapshot.option path name fallback := by
    intro path name fallback
    rw [option_eq_found, option_eq_found]
    have hleft := @Written.optionValue writes builder'.snapshot h' (canonicalVsiPath path)
      (canonicalOptionName name) fallback
    have hright := @Written.optionValue writes builder.snapshot h (canonicalVsiPath path)
      (canonicalOptionName name) fallback
    have henv' : builder'.snapshot.environment = builder.snapshot.environment := henv
    rw [henv'] at hleft
    exact hleft.unique hright
  refine ⟨builder'.snapshot, freeze_ok_iff.mpr ⟨⟨henv ▸ hvalid, hsame ▸ hexplicit, ?_, ?_⟩, rfl⟩,
    hoption⟩
  · intro rule hrule
    -- either the other order has a rule for this prefix, or the prefix offers nothing
    have hvalues : rule.values = ruleValue builder.paths rule.pathPrefix := by
      funext name
      rw [← ruleValue_of_mem builder'.distinct hrule, h'.rule_eq, h.rule_eq]
    cases hfind : builder.paths.find? (·.pathPrefix = rule.pathPrefix) with
    | some old =>
        refine checkRule_eq_ok ?_ (hrules old (List.mem_of_find?_eq_some hfind))
        rw [hvalues]
        funext name
        rw [ruleValue, hfind]
        rfl
    | none =>
        have hempty : rule.values = OptionMap.empty := by
          rw [hvalues]
          funext name
          rw [ruleValue, hfind]
          rfl
        rw [checkRule, hempty]
        rfl
  · intro number hnumber
    rw [checkNumber, hoption]
    exact hnumbers number hnumber

end

/-- **Precedence and order independence.**  A query is answered from the longest matching prefix
that has the option, else from the explicit layer, else from the environment, else with the
fallback, whatever the calls were; and calls in another order, the writes to each place in the
same one, answer every query alike. -/
theorem option_precedence (includeEnvironment : Bool) (getenv : Text → Option Text)
    {writes : List Write} {builder : ConfigBuilder} {config : ConfigSnapshot}
    (hwrites : performAll (.new includeEnvironment getenv) writes = .ok builder)
    (hfreeze : builder.freeze = .ok config) :
    (∀ path name fallback, OptionValue writes
      (environmentValue includeEnvironment getenv (canonicalOptionName name))
      (canonicalVsiPath path) (canonicalOptionName name) fallback
      (config.option path name fallback)) ∧
    ∀ writes', Reordered writes writes' → ∃ builder' config',
      performAll (.new includeEnvironment getenv) writes' = .ok builder' ∧
        builder'.freeze = .ok config' ∧ ∀ path name,
          (∀ fallback, config'.option path name fallback = config.option path name fallback) ∧
            config'.hasOption path name = config.hasOption path name := by
  have hnew : Written [] (ConfigBuilder.new includeEnvironment getenv).explicit
      (ConfigBuilder.new includeEnvironment getenv).paths := by
    cases includeEnvironment <;> exact ⟨fun _ => rfl, fun _ _ => rfl⟩
  obtain ⟨hwritten, henv⟩ := hnew.performAll hwrites
  rw [List.nil_append] at hwritten
  constructor
  · intro path name fallback
    obtain ⟨-, rfl⟩ := freeze_ok_iff.mp hfreeze
    have hanswers := @Written.optionValue writes builder.snapshot hwritten (canonicalVsiPath path)
      (canonicalOptionName name) fallback
    have hlayer : builder.snapshot.environment (canonicalOptionName name) =
        environmentValue includeEnvironment getenv (canonicalOptionName name) :=
      (congrFun henv _).trans (environment_new includeEnvironment getenv _)
    rw [hlayer] at hanswers
    rw [option_eq_found]
    exact hanswers
  · intro writes' hreordered
    have hok : ∀ w ∈ writes', ∃ b b', w.perform b = .ok b' :=
      fun w hw => performAll_ok hwrites w (hreordered.1.mem_iff.mpr hw)
    obtain ⟨builder', hwrites'⟩ := performAll_of_ok hok (.new includeEnvironment getenv)
    obtain ⟨hwritten', henv'⟩ := hnew.performAll hwrites'
    rw [List.nil_append] at hwritten'
    have hmoved : Written writes builder'.explicit builder'.paths :=
      ⟨fun name => (hwritten'.explicit_eq name).trans (hreordered.current_eq _),
        fun pre name => (hwritten'.rule_eq pre name).trans (hreordered.current_eq _)⟩
    obtain ⟨config', hfreeze', hoption⟩ :=
      hwritten.snapshot_alike hmoved (henv'.trans henv.symm) hfreeze
    refine ⟨builder', config', hwrites', hfreeze', fun path name => ⟨hoption path name, ?_⟩⟩
    rw [ConfigSnapshot.hasOption, ConfigSnapshot.hasOption, hoption]

/-- A profile below a bucket, spelled as a URL, and one everywhere under an alias. -/
def profileWrites : List Write :=
  [.setPath (text "s3://b/") (text "aws_profile") (some (text "x")),
    .set (text "AWS_DEFAULT_PROFILE") (some (text "y"))]

theorem option_precedence_profile :
    ∃ builder config, performAll (.new false fun _ => none) profileWrites = .ok builder ∧
      builder.freeze = .ok config ∧
      OptionValue profileWrites (environmentValue false (fun _ => none) (text "AWS_PROFILE"))
        (text "/vsis3/b/k") (text "AWS_PROFILE") []
        (config.option (text "/vsis3/b/k") (text "AWS_PROFILE")) ∧
      ∃ builder' config', performAll (.new false fun _ => none) profileWrites.reverse =
          .ok builder' ∧ builder'.freeze = .ok config' ∧
        config'.option (text "/vsis3/b/k") (text "AWS_PROFILE") =
          config.option (text "/vsis3/b/k") (text "AWS_PROFILE") := by
  have hok : ((performAll (.new false fun _ => none) profileWrites).bind (·.freeze)).isOk = true := by
    decide +kernel
  have hpath : canonicalVsiPath (text "/vsis3/b/k") = text "/vsis3/b/k" := by decide +kernel
  have hname : canonicalOptionName (text "AWS_PROFILE") = text "AWS_PROFILE" := by decide +kernel
  have hreordered : Reordered profileWrites profileWrites.reverse := by
    refine ⟨(List.reverse_perm _).symm, fun place => ?_⟩
    have hplaces : (some (text "/vsis3/b/"), text "AWS_PROFILE") ≠
        ((none : Option Text), text "AWS_PROFILE") := by simp
    have hfirst : (Write.setPath (text "s3://b/") (text "aws_profile") (some (text "x"))).place =
        (some (text "/vsis3/b/"), text "AWS_PROFILE") := by decide +kernel
    have hsecond : (Write.set (text "AWS_DEFAULT_PROFILE") (some (text "y"))).place =
        (none, text "AWS_PROFILE") := by decide +kernel
    simp only [profileWrites, List.reverse_cons, List.reverse_nil, List.nil_append,
      List.cons_append, List.filter_cons, List.filter_nil, hfirst, hsecond]
    by_cases h : (some (text "/vsis3/b/"), text "AWS_PROFILE") = place
    · have hother : ¬ ((none : Option Text), text "AWS_PROFILE") = place :=
        fun heq => hplaces (h.trans heq.symm)
      simp [h, hother]
    · simp [h]
  cases hwrites : performAll (.new false fun _ => none) profileWrites with
  | error wrong =>
      rw [hwrites] at hok
      cases hok
  | ok builder =>
      rw [hwrites] at hok
      cases hfreeze : builder.freeze with
      | error wrong =>
          have hfailed : (builder.freeze).isOk = true := hok
          rw [hfreeze] at hfailed
          cases hfailed
      | ok config =>
          obtain ⟨hanswers, horder⟩ := option_precedence false (fun _ => none) hwrites hfreeze
          obtain ⟨builder', config', hwrites', hfreeze', hsame⟩ := horder _ hreordered
          have hanswer := hanswers (text "/vsis3/b/k") (text "AWS_PROFILE") []
          rw [hpath, hname] at hanswer
          exact ⟨builder, config, rfl, hfreeze, hanswer, builder', config', hwrites', hfreeze',
            (hsame _ _).1 _⟩

end Karu
