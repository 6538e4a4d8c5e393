/-
# `Karu.Backends.Ini` — `read_ini` reads what an INI file says

An INI file is given by its sections, each with a name and entries.  Written out
line by line and read by `read_ini`, it comes to the entries put one after
another into the section they stand in; a section that is named again goes on
where it ended, and the last value of a key stays.
-/
import Karu.Backends.Credentials

namespace Karu

open Base

namespace Backends

/-! ## Trimming -/

/-- A text that neither begins nor ends with white space. -/
structure Trimmed (s : Text) : Prop where
  head : ∀ c, s.head? = some c → isSpace c = false
  last : ∀ c, s.getLast? = some c → isSpace c = false

theorem all_trimmed {s : Text} :
    (s.head?.all fun c => !isSpace c) ∧ (s.getLast?.all fun c => !isSpace c) ↔ Trimmed s := by
  constructor
  · rintro ⟨hhead, hlast⟩
    exact ⟨fun c hc => by simpa [hc] using hhead, fun c hc => by simpa [hc] using hlast⟩
  · intro h
    rw [Option.all_eq_true, Option.all_eq_true]
    exact ⟨by simpa using h.head, by simpa using h.last⟩

instance {s : Text} : Decidable (Trimmed s) := decidable_of_iff _ all_trimmed

theorem dropWhile_head {s : Text} (h : ∀ c, s.head? = some c → isSpace c = false) :
    s.dropWhile isSpace = s := by
  cases s with
  | nil => rfl
  | cons c cs =>
      have hc := h c rfl
      rw [List.dropWhile_cons_of_neg]
      rw [hc]
      exact Bool.false_ne_true

theorem Trimmed.trim_eq {s : Text} (h : Trimmed s) : trim s = s := by
  rw [trim, dropWhile_head h.head, dropWhile_head, List.reverse_reverse]
  intro c hc
  rw [List.head?_reverse] at hc
  exact h.last c hc

/-! ## Files -/

/-- A key and its value, as they stand in a file. -/
structure IniEntry where
  key : Text
  value : Text
  key_ne_nil : key ≠ []
  key_trimmed : Trimmed key
  key_lower : lower key = key
  key_plain : ∀ c ∈ key, c ∉ text "=:"
  key_line : 10 ∉ key
  key_begins : ∀ c, key.head? = some c → c ∉ text "#;["
  value_trimmed : Trimmed value
  value_line : 10 ∉ value

/-- A section and the entries under its name. -/
structure IniPart where
  name : Text
  entries : List IniEntry
  name_ne_nil : name ≠ []
  name_trimmed : Trimmed name
  name_line : 10 ∉ name

def IniEntry.line (e : IniEntry) : Text := e.key ++ 61 :: e.value

def IniPart.lines (p : IniPart) : List Text :=
  (91 :: (p.name ++ [93])) :: p.entries.map IniEntry.line

/-- The text of a file. -/
def iniText (parts : List IniPart) : Text := (parts.flatMap IniPart.lines).flatMap (· ++ [10])

/-- An entry goes into its section. -/
def IniEntry.put (name : Text) (file : IniFile) (e : IniEntry) : IniFile := fun other =>
  if other = name then some (((file name).getD OptionMap.empty).assign e.key (some e.value))
  else file other

/-- What a file says, on top of another one. -/
def IniPart.putAll (file : IniFile) (p : IniPart) : IniFile :=
  p.entries.foldl (IniEntry.put p.name) file

/-! ## Reading -/

theorem lines_terminated {ls : List Text} (h : ∀ l ∈ ls, (10 : UInt8) ∉ l) :
    lines (ls.flatMap (· ++ [10])) = ls ++ [[]] := by
  induction ls with
  | nil => rfl
  | cons l ls ih =>
      have hl : ∀ c ∈ l, (c == 10) = false := by
        intro c hc
        rw [beq_eq_false_iff_ne]
        rintro rfl
        exact h l List.mem_cons_self hc
      have hrest := ih fun l' hl' => h l' (List.mem_cons_of_mem _ hl')
      rw [List.flatMap_cons, List.append_assoc, List.singleton_append]
      show (l ++ 10 :: ls.flatMap (· ++ [10])).splitOnP (· == 10) = l :: (ls ++ [[]])
      rw [List.splitOnP_append_cons_of_forall_mem hl 10 rfl, ← hrest]
      rfl

theorem iniLine_name (p : IniPart) (state : IniFile × Text) :
    iniLine state (91 :: (p.name ++ [93])) = (state.1, p.name) := by
  have htrimmed : Trimmed (91 :: (p.name ++ [93])) := by
    refine ⟨?_, ?_⟩
    · rintro c ⟨⟩
      decide
    · intro c hc
      rw [← List.cons_append, List.getLast?_append] at hc
      cases hc
      decide
  have hlast : (91 :: (p.name ++ [93])).getLast? = some (93 : UInt8) := by
    rw [← List.cons_append, List.getLast?_append]
    rfl
  have hinside : ((91 :: (p.name ++ [93])).drop 1).take ((91 :: (p.name ++ [93])).length - 2) =
      p.name := by
    rw [List.drop_one, List.tail_cons, List.length_cons, List.length_append, List.length_singleton]
    exact List.take_left
  unfold iniLine
  simp only [htrimmed.trim_eq, hlast, hinside, p.name_trimmed.trim_eq]
  rfl

theorem IniEntry.line_trimmed (e : IniEntry) : Trimmed e.line := by
  obtain ⟨k, ks, hk⟩ := List.exists_cons_of_ne_nil e.key_ne_nil
  refine ⟨?_, ?_⟩
  · intro c hc
    refine e.key_trimmed.head c ?_
    rw [line, hk] at hc
    rw [hk]
    exact hc
  · intro c hc
    rw [line, List.getLast?_append] at hc
    cases hv : e.value with
    | nil =>
        rw [hv] at hc
        cases hc
        decide
    | cons v vs =>
        refine e.value_trimmed.last c ?_
        rw [hv] at hc ⊢
        simpa [List.getLast?_cons_cons] using hc

theorem IniEntry.findFirstOf_line (e : IniEntry) :
    findFirstOf (text "=:") e.line = some e.key.length := by
  have hequals : findFirstOf (text "=:") (61 :: e.value) = some 0 := by
    have hmem : (text "=:").contains 61 = true := by decide
    rw [findFirstOf, List.drop_zero, List.findIdx?_cons, hmem]
    rfl
  rw [IniEntry.line, findFirstOf_append e.key_plain, hequals, Option.map_some, Nat.zero_add]

theorem iniLine_entry (e : IniEntry) {name : Text} (hname : name ≠ []) (file : IniFile) :
    iniLine (file, name) e.line = (e.put name file, name) := by
  obtain ⟨k, ks, hk⟩ := List.exists_cons_of_ne_nil e.key_ne_nil
  have hline : e.line = k :: (ks ++ 61 :: e.value) := by
    rw [IniEntry.line, hk, List.cons_append]
  have hbegins := e.key_begins k (by rw [hk]; rfl)
  have hcomment : ∀ b ∈ text "#;[", (e.line.head? == some b) = false := by
    intro b hb
    rw [hline, List.head?_cons, beq_eq_false_iff_ne]
    intro heq
    rw [Option.some.inj heq] at hbegins
    exact hbegins hb
  have hkey : e.line.take e.key.length = e.key := List.take_left
  have hvalue : e.line.drop (e.key.length + 1) = e.value := by
    rw [IniEntry.line, ← List.drop_drop, List.drop_left]
    rfl
  have hempty : e.line.isEmpty = false := by
    rw [hline]
    rfl
  have hnamed : name.isEmpty = false := by
    rw [List.isEmpty_eq_false_iff]
    exact hname
  unfold iniLine
  simp only [e.line_trimmed.trim_eq, hempty, hcomment 35 (by decide), hcomment 59 (by decide),
    hcomment 91 (by decide), e.findFirstOf_line, hkey, hvalue, hnamed, e.key_trimmed.trim_eq,
    e.value_trimmed.trim_eq, e.key_lower, Bool.or_false, Bool.false_and, Bool.false_eq_true,
    if_false]
  rfl

theorem foldl_entries {name : Text} (hname : name ≠ []) (entries : List IniEntry) (file : IniFile) :
    (entries.map IniEntry.line).foldl iniLine (file, name) =
      (entries.foldl (IniEntry.put name) file, name) := by
  induction entries generalizing file with
  | nil => rfl
  | cons e entries ih =>
      rw [List.map_cons, List.foldl_cons, iniLine_entry e hname, List.foldl_cons]
      exact ih (e.put name file)

theorem foldl_parts (parts : List IniPart) (state : IniFile × Text) :
    ((parts.flatMap IniPart.lines).foldl iniLine state).1 = parts.foldl IniPart.putAll state.1 := by
  induction parts generalizing state with
  | nil => rfl
  | cons p parts ih =>
      rw [List.flatMap_cons, List.foldl_append, ih, IniPart.lines, List.foldl_cons, iniLine_name,
        foldl_entries p.name_ne_nil, List.foldl_cons]
      rfl

theorem IniPart.one_line (p : IniPart) : ∀ l ∈ p.lines, (10 : UInt8) ∉ l := by
  intro l hl
  rw [IniPart.lines, List.mem_cons, List.mem_map] at hl
  rcases hl with rfl | ⟨e, -, rfl⟩
  · rw [List.mem_cons, List.mem_append, List.mem_singleton, not_or, not_or]
    exact ⟨by decide, p.name_line, by decide⟩
  · rw [IniEntry.line, List.mem_append, List.mem_cons, not_or, not_or]
    exact ⟨e.key_line, by decide, e.value_line⟩

theorem foldl_iniText (parts : List IniPart) :
    ((lines (iniText parts)).foldl iniLine (fun _ => none, [])).1 =
      parts.foldl IniPart.putAll fun _ => none := by
  have hlines : ∀ l ∈ parts.flatMap IniPart.lines, (10 : UInt8) ∉ l := by
    intro l hl
    obtain ⟨p, -, hp⟩ := List.mem_flatMap.mp hl
    exact p.one_line l hp
  rw [iniText, lines_terminated hlines, List.foldl_append]
  -- behind the last newline stands an empty line
  exact foldl_parts parts (fun _ => none, [])

theorem readTextFile_run {world : Ask.World Question.Answer} {asked : Ask.Trace Question.Answer}
    {path contents : Text} (purpose : Text) (hread : world asked (.read path) = .contents contents)
    (hfits : contents.length ≤ 2 ^ 20) :
    Ask.run world asked (readTextFile path purpose).run =
      (asked ++ [⟨.read path, .contents contents⟩], .ok contents) := by
  unfold readTextFile
  show Ask.run world (asked ++ [⟨.read path, world asked (.read path)⟩]) _ = _
  rw [hread]
  show Ask.run world _ (if 2 ^ 20 < contents.length then _ else pure contents : Loader Text).run = _
  rw [if_neg (Nat.not_lt.mpr hfits)]
  rfl

/-- Where the file can be read and has the text of these sections, `read_ini` asks for it, once,
and returns what they say. -/
theorem readIni_iniText (world : Ask.World Question.Answer) (asked : Ask.Trace Question.Answer)
    (path purpose : Text) (parts : List IniPart)
    (hread : world asked (.read path) = .contents (iniText parts))
    (hfits : (iniText parts).length ≤ 2 ^ 20) :
    Ask.run world asked (readIni path purpose).run =
      (asked ++ [⟨.read path, .contents (iniText parts)⟩],
        .ok (parts.foldl IniPart.putAll fun _ => none)) := by
  show Ask.run world asked (Ask.bind (readTextFile path purpose).run _) = _
  rw [Ask.run_bind, readTextFile_run purpose hread hfits, ← foldl_iniText]
  rfl

/-- A machine on which every file has this text, and nothing else answers. -/
def fileWorld (contents : Text) : Ask.World Question.Answer
  | _, .exists _ => .ok true
  | _, .read _ => .contents contents
  | _, .send _ => .refused []
  | _, .run _ _ _ => .error []
  | _, .time => 0

/-- A section that is named again, and a key that is given a second value there. -/
theorem readIni_iniText_twice :
    ∃ (world : Ask.World Question.Answer) (path : Text) (file : IniFile),
      (∀ asked purpose, (Ask.run world asked (readIni path purpose).run).2 = .ok file) ∧
        (file (text "default")).map (fun values => (values (text "region"), values (text "key"))) =
          some (some (text "eu-west-1"), some (text "AK")) ∧
        (file (text "profile ci")).bind (· (text "region")) = some (text "us-east-1") := by
  let region (value : Text) (ht : Trimmed value) (hl : 10 ∉ value) : IniEntry :=
    ⟨text "region", value, by decide, by decide, by decide, by decide +kernel, by decide +kernel,
      (by rintro c ⟨⟩; decide), ht, hl⟩
  let key : IniEntry :=
    ⟨text "key", text "AK", by decide, by decide, by decide, by decide +kernel, by decide +kernel,
      (by rintro c ⟨⟩; decide), by decide, by decide⟩
  let parts : List IniPart :=
    [⟨text "default", [region (text "eu-central-1") (by decide) (by decide), key],
        by decide, by decide, by decide⟩,
      ⟨text "profile ci", [region (text "us-east-1") (by decide) (by decide)],
        by decide, by decide, by decide⟩,
      ⟨text "default", [region (text "eu-west-1") (by decide) (by decide)],
        by decide, by decide, by decide⟩]
  refine ⟨fileWorld (iniText parts), text "/root/.aws/config",
    parts.foldl IniPart.putAll fun _ => none, ?_, ?_, ?_⟩
  · intro asked purpose
    rw [readIni_iniText (fileWorld (iniText parts)) asked _ purpose parts rfl (by decide)]
  · decide
  · decide

end Backends

end Karu
