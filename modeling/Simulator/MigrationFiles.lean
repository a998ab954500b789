import Simulator.MigrationHistories

/-!
# What becomes of the migration files

Every direction but `up` is a down script, and a later file replaces an earlier one.
-/

namespace Simulator

open BinaryHeap StoppableLoops List Option Migration Except

variable {c : Char} {text old behind : List Char} {filename name : String} {p : ScriptFile}
  {files : List MigrationFile}

theorem cutFirst_eq_some_iff :
    cutFirst c text = some (old, behind) ↔ text = old ++ c :: behind ∧ c ∉ old := by
  induction text generalizing old with
  | nil => simp [cutFirst]
  | cons x rest ih =>
    by_cases here : x = c
    · subst here
      have cut : cutFirst x (x :: rest) = some ([], rest) := by
        simp [cutFirst, span_eq_takeWhile_dropWhile]
      rw [cut, some.injEq, Prod.mk.injEq]
      cases old with
      | nil => simp
      | cons y old =>
        constructor
        · rintro ⟨⟨⟩, -⟩
        · rintro ⟨split, absent⟩
          rw [cons_append, cons.injEq] at split
          exact absurd (by simp [split.1]) absent
    · have skipped : cutFirst c (x :: rest) = (cutFirst c rest).map fun cut => (x :: cut.1, cut.2) := by
        unfold cutFirst
        rw [span_eq_takeWhile_dropWhile, span_eq_takeWhile_dropWhile,
          takeWhile_cons_of_pos (by simpa using here), dropWhile_cons_of_pos (by simpa using here)]
        cases rest.dropWhile (· ≠ c) with
        | nil | cons mark tail => rfl
      rw [skipped, map_eq_some_iff]
      constructor
      · rintro ⟨⟨first, last⟩, cut, eq⟩
        cases eq
        obtain ⟨rfl, absent⟩ := ih.mp cut
        exact ⟨rfl, by simp [absent, Ne.symm here]⟩
      · rintro ⟨split, absent⟩
        cases old with
        | nil =>
          rw [nil_append, cons.injEq] at split
          exact absurd split.1 here
        | cons y old =>
          rw [cons_append, cons.injEq] at split
          obtain ⟨rfl, rfl⟩ := split
          rw [mem_cons, not_or] at absent
          exact ⟨(old, behind), ih.mpr ⟨rfl, absent.2⟩, rfl⟩

theorem cutLast_eq_some_iff :
    cutLast c text = some (old, behind) ↔ text = old ++ c :: behind ∧ c ∉ behind := by
  unfold cutLast
  rw [map_eq_some_iff]
  constructor
  · rintro ⟨⟨first, last⟩, cut, eq⟩
    cases eq
    obtain ⟨split, absent⟩ := cutFirst_eq_some_iff.mp cut
    refine ⟨?_, by simpa using absent⟩
    rw [← reverse_reverse text, split]
    simp
  · rintro ⟨rfl, absent⟩
    refine ⟨(behind.reverse, old.reverse), ?_, by simp⟩
    exact cutFirst_eq_some_iff.mpr ⟨by simp, by simpa using absent⟩

theorem isDigit_of_parseDigits {digits : List Char} {n : Nat}
    (read : parseDigits digits = some n) : ∀ c ∈ digits, c.isDigit = true := by
  unfold parseDigits at read
  split at read
  · rename_i spelled
    exact all_eq_true.mp spelled.2
  · cases read

variable {version : Int} {file : MigrationFile}

theorem underscore_not_mem_of_signedAtoi {number : List Char}
    (read : signedAtoi number = some version) : '_' ∉ number := by
  unfold signedAtoi at read
  obtain ⟨v, -⟩ := filter_eq_some_iff.mp read
  have absent : ∀ {digits : List Char} {f : Nat → Int} {n : Int},
      (parseDigits digits).map f = some n → '_' ∉ digits := by
    intro digits f n mapped mem
    obtain ⟨m, digitsParsed, -⟩ := map_eq_some_iff.mp mapped
    exact absurd (isDigit_of_parseDigits digitsParsed _ mem) (by decide)
  split at v
  · simpa using absent v
  · simpa using absent v
  · exact absent v

theorem parseName_eq_ok_iff {direction : String} :
    parseName filename = .ok (version, name, direction) ↔
      ∃ n, signedAtoi n = some version ∧ filename.toList = n ++ '_' :: name.toList ++
          '.' :: direction.toList ++ ".sql".toList ∧ '.' ∉ direction.toList := by
  constructor
  · intro read
    unfold parseName at read
    dsimp only at read
    split at read
    · rename_i suffixed
      obtain ⟨stem, split⟩ := isSuffixOf_iff_suffix.mp suffixed
      have stemmed : filename.toList.take (filename.toList.length - 4) =
          stem := by
        rw [← split]
        simp
      split at read
      · cases read
      · rename_i rest last cut
        rw [stemmed] at cut
        obtain ⟨rfl, noDot⟩ := cutLast_eq_some_iff.mp cut
        split at read
        · cases read
        · rename_i n called cutRest
          obtain ⟨rfl, -⟩ := cutFirst_eq_some_iff.mp cutRest
          split at read
          · cases read
          · rename_i n v
            cases read
            exact ⟨_, v, by simpa using split.symm, by simpa using noDot⟩
    · cases read
  · rintro ⟨n, v, spelled, noDot⟩
    have suffixed : ".sql".toList.isSuffixOf filename.toList = true :=
      isSuffixOf_iff_suffix.mpr ⟨_, spelled.symm⟩
    have stemmed : filename.toList.take (filename.toList.length - 4) =
        (n ++ '_' :: name.toList) ++ '.' :: direction.toList := by
      rw [spelled]
      have four : ".sql".toList.length = 4 := rfl
      refine take_left' ?_
      simp only [length_append, four]
      omega
    have cut := cutLast_eq_some_iff.mpr ⟨stemmed, noDot⟩
    have cutRest : cutFirst '_' (n ++ '_' :: name.toList) =
        some (n, name.toList) := cutFirst_eq_some_iff.mpr ⟨rfl, underscore_not_mem_of_signedAtoi v⟩
    unfold parseName
    dsimp only
    rw [if_pos suffixed, cut]
    dsimp only
    rw [cutRest]
    dsimp only
    rw [v]
    simp

def NamedFor (up : Bool) (filename : String) (version : Int) (name : String) : Prop :=
  ∃ number, signedAtoi number = some version ∧ filename.toList = number ++ '_' :: name.toList ++
      (if up then ".up.sql" else ".down.sql").toList

theorem namedFor_iff {up : Bool} :
    NamedFor up filename version name ↔ parseName filename =
        .ok (version, name, if up then "up" else "down") := by
  rw [parseName_eq_ok_iff]
  unfold NamedFor
  cases up with
  | false | true => simp

/-- A file of which `LoadMigrations` has read the name and the content -/
structure ScriptFile where
  version : Int
  name : String
  direction : String
  content : String
deriving DecidableEq

/-- What the first loop of `LoadMigrations` reads of a file -/
def MigrationFile.parse (file : MigrationFile) : Option ScriptFile :=
  match parseName file.name, file.content with
  | .ok (version, name, direction), .ok content =>
    some ⟨version, name, direction, content⟩
  | _, _ => none

theorem MigrationFile.parse_eq_some_iff :
    file.parse = some p ↔ parseName file.name = .ok (p.version, p.name, p.direction) ∧
        file.content = .ok p.content := by
  unfold MigrationFile.parse
  obtain ⟨version, name, direction, content⟩ := p
  cases parseName file.name with
  | error msg => simp
  | ok read =>
    cases file.content with
    | error msg => simp
    | ok text =>
      simp only [some.injEq, ScriptFile.mk.injEq, ok.injEq, Prod.ext_iff]
      tauto

def fillFile (byVersion : List Migration) (p : ScriptFile) : List Migration :=
  fillVersion p.version p.name p.direction p.content byVersion

def collect (ps : List ScriptFile) : List Migration :=
  ps.foldl fillFile []

theorem loadFile_of_parse {byVersion : List Migration} (parsed : file.parse = some p) :
    loadFile byVersion file = (fillFile byVersion p, none) := by
  obtain ⟨named, read⟩ := MigrationFile.parse_eq_some_iff.mp parsed
  simp only [loadFile, named, read, fillFile]

theorem loadFile_of_parse_none (byVersion : List Migration) (unparsed : file.parse = none) :
    ∃ msg, loadFile byVersion file = (byVersion, some msg) := by
  unfold MigrationFile.parse at unparsed
  unfold loadFile
  cases named : parseName file.name with
  | error msg => exact ⟨_, rfl⟩
  | ok parsed =>
    cases read : file.content with
    | error msg => exact ⟨_, rfl⟩
    | ok content => simp [named, read] at unparsed

def scripts (files : List MigrationFile) : List ScriptFile :=
  files.filterMap MigrationFile.parse

theorem untilError_loadFile
    (readable : ∀ file ∈ files, file.parse ≠ none) (byVersion : List Migration) :
    untilError loadFile files byVersion = ((scripts files).foldl fillFile byVersion, none) := by
  induction files generalizing byVersion with
  | nil => rfl
  | cons file rest ih =>
    obtain ⟨p, read⟩ := ne_none_iff_exists'.mp (readable file mem_cons_self)
    rw [untilError_cons_none (loadFile_of_parse read),
      ih fun other later => readable other (mem_cons_of_mem _ later),
      scripts, scripts, filterMap_cons_some read, foldl_cons]

theorem untilError_loadFile_of_none (mem : file ∈ files)
    (unreadable : file.parse = none) (byVersion : List Migration) :
    ∃ msg, (untilError loadFile files byVersion).2 = some msg := by
  induction files generalizing byVersion with
  | nil => cases mem
  | cons first rest ih =>
    cases read : first.parse with
    | none =>
      obtain ⟨msg, failed⟩ := loadFile_of_parse_none byVersion read
      rw [untilError_cons_some failed]
      exact ⟨msg, rfl⟩
    | some p =>
      rw [untilError_cons_none (loadFile_of_parse read)]
      rcases mem_cons.mp mem with rfl | later
      · rw [unreadable] at read
        cases read
      · exact ih later _

theorem find_fillFile (byVersion : List Migration) (p : ScriptFile) (version : Int) :
    (fillFile byVersion p).find? (fun m => m.version = version) =
      if p.version = version then
        some (((byVersion.find? fun m => m.version = version).getD
          ⟨p.version, p.name, "", ""⟩).fill p.direction p.content)
      else byVersion.find? fun m => m.version = version := by
  unfold fillFile
  induction byVersion with
  | nil =>
    simp only [fillVersion, find?_nil, getD_none, find?_cons, version_fill]
    split <;> simp_all
  | cons m rest ih =>
    unfold fillVersion
    by_cases eq : m.version = p.version
    · rw [if_pos eq, find?_cons, find?_cons, version_fill, eq]
      split <;> simp_all
    · rw [if_neg eq, find?_cons, find?_cons, ih]
      by_cases asked : m.version = version
      · have other : p.version ≠ version := by
          rintro rfl
          exact eq asked
        simp [asked, other]
      · simp [asked]

section

variable (ps : List ScriptFile) (version : Int)

def firstName : String :=
  ((ps.find? fun p => p.version = version).map ScriptFile.name).getD ""

def lastText (up : Bool) : String :=
  ((ps.reverse.find? fun p =>
      p.version = version ∧ (p.direction == "up") = up).map
    ScriptFile.content).getD ""

end

section

variable {ps : List ScriptFile} {p : ScriptFile} {version : Int}

theorem find_version_eq_none (unknown : version ∉ ps.map ScriptFile.version) :
    ps.find? (fun p => p.version = version) = none := by
  simpa using unknown

theorem firstName_append_of_mem (known : version ∈ ps.map ScriptFile.version) :
    firstName (ps ++ [p]) version = firstName ps version := by
  have hit : (ps.find? fun p => p.version = version).isSome = true := by
    simpa using known
  unfold firstName
  rw [find?_append, or_of_isSome hit]

theorem firstName_append_self (unknown : p.version ∉ ps.map ScriptFile.version) :
    firstName (ps ++ [p]) p.version = p.name := by
  unfold firstName
  rw [find?_append, find_version_eq_none unknown]
  simp

theorem lastText_append (up : Bool) :
    lastText (ps ++ [p]) version up =
      if p.version = version ∧ (p.direction == "up") = up then p.content
      else lastText ps version up := by
  unfold lastText
  rw [reverse_append, reverse_singleton, singleton_append, find?_cons]
  split <;> simp_all

theorem lastText_of_not_mem (up : Bool) (unknown : version ∉ ps.map ScriptFile.version) :
    lastText ps version up = "" := by
  have absent : ps.reverse.find? (fun p =>
      p.version = version ∧ (p.direction == "up") = up) = none := by
    rw [find?_eq_none]
    intro p listed matching
    simp only [decide_eq_true_eq] at matching
    exact unknown (mem_map.mpr ⟨p, mem_reverse.mp listed, matching.1⟩)
  rw [lastText, absent]
  rfl

end

def collected (ps : List ScriptFile) (version : Int) : Migration :=
  ⟨version, firstName ps version, lastText ps version true, lastText ps version false⟩

theorem find_collect (ps : List ScriptFile) (version : Int) :
    (collect ps).find? (fun m => m.version = version) =
      if version ∈ ps.map ScriptFile.version then some (collected ps version)
      else none := by
  unfold collected
  induction ps using reverseRecOn with
  | nil => rfl
  | append_singleton ps p ih =>
    have folded : collect (ps ++ [p]) = fillFile (collect ps) p := by
      simp [collect]
    rw [folded, find_fillFile, ih, lastText_append, lastText_append]
    by_cases eq : p.version = version
    · subst eq
      have listed : p.version ∈ (ps ++ [p]).map ScriptFile.version := by
        simp
      rw [if_pos rfl, if_pos listed]
      by_cases known : p.version ∈ ps.map ScriptFile.version
      · rw [if_pos known, firstName_append_of_mem known]
        by_cases up : p.direction = "up" <;> simp [fill, up]
      · rw [if_neg known, firstName_append_self known,
          lastText_of_not_mem _ known, lastText_of_not_mem _ known]
        by_cases up : p.direction = "up" <;> simp [fill, up]
    · by_cases known : version ∈ ps.map ScriptFile.version
      · rw [firstName_append_of_mem known]
        simp [eq, Ne.symm eq, known]
      · simp [eq, Ne.symm eq, known]

theorem nodup_collect (ps : List ScriptFile) : ((collect ps).map Migration.version).Nodup := by
  induction ps using reverseRecOn with
  | nil => exact nodup_nil
  | append_singleton ps p ih =>
    have folded : collect (ps ++ [p]) = fillFile (collect ps) p := by
      simp [collect]
    rw [folded]
    exact nodup_fillVersion ih

variable {m : Migration}

theorem find_version_of_mem {ms : List Migration}
    (nodup : (ms.map Migration.version).Nodup) (mem : m ∈ ms) :
    ms.find? (fun other => other.version = m.version) = some m := by
  induction ms with
  | nil => cases mem
  | cons first rest ih =>
    rw [map_cons, nodup_cons] at nodup
    rcases mem_cons.mp mem with rfl | later
    · simp
    · have other : first.version ≠ m.version := fun eq =>
        nodup.1 (eq ▸ mem_map_of_mem later)
      rw [find?_cons_of_neg (by simpa using other)]
      exact ih nodup.2 later

variable {ps : List ScriptFile}

theorem mem_collect_iff : m ∈ collect ps ↔ ∃ p ∈ ps, m = collected ps p.version := by
  constructor
  · intro mem
    have hit := find_version_of_mem (nodup_collect ps) mem
    rw [find_collect] at hit
    split at hit
    · rename_i known
      obtain ⟨p, listed, versions⟩ := mem_map.mp known
      rw [some.injEq] at hit
      exact ⟨p, listed, by rw [versions, hit]⟩
    · cases hit
  · rintro ⟨p, listed, rfl⟩
    have hit := find_collect ps p.version
    rw [if_pos (mem_map_of_mem listed)] at hit
    exact mem_of_find?_eq_some hit

theorem script_eq_lastText (mem : m ∈ collect ps) (up : Bool) :
    (if up then m.up else m.down) = lastText ps m.version up := by
  obtain ⟨p, -, rfl⟩ := mem_collect_iff.mp mem
  cases up with
  | false | true => rfl

section

variable {arrange : List Migration → List Migration}
  {sortSlice : (Migration → Migration → Bool) → List Migration → List Migration}
  {files : List MigrationFile} {ms : List Migration}

theorem loadMigrations_eq_ok_iff (arranges : ∀ list, (arrange list).Perm list) :
    loadMigrations (.ok files) arrange sortSlice = .ok ms ↔ (∀ file ∈ files, file.parse ≠ none) ∧
        (∀ p ∈ scripts files, lastText (scripts files) p.version true ≠ "") ∧
        sortSlice before (arrange (collect (scripts files))) =
          ms := by
  unfold loadMigrations
  dsimp only
  by_cases readable : ∀ file ∈ files, file.parse ≠ none
  · have filled : (arrange (collect (scripts files))).find? (·.up = "") =
        none ↔ ∀ p ∈ scripts files, lastText (scripts files) p.version true ≠ "" := by
      rw [find?_eq_none]
      simp only [(arranges _).mem_iff, mem_collect_iff, decide_eq_true_eq]
      constructor
      · intro full p listed
        exact full _ ⟨p, listed, rfl⟩
      · rintro full m ⟨p, listed, rfl⟩
        exact full p listed
    rw [untilError_loadFile readable, ← collect]
    dsimp only
    rw [← filled]
    cases (arrange (collect (scripts files))).find? (·.up = "") with
    | none => simpa using fun _ => readable
    | some m => simp
  · obtain ⟨file, mem, unreadable⟩ := by simpa using readable
    obtain ⟨msg, failed⟩ := untilError_loadFile_of_none mem unreadable []
    constructor
    · intro loaded
      split at loaded
      · cases loaded
      · rename_i through
        rw [through] at failed
        cases failed
    · exact fun loaded => absurd loaded.1 readable

structure AccountsFor (files : List MigrationFile) (ms : List Migration) :
    Prop where
  named : ∀ file ∈ files, ∃ up version name, NamedFor up file.name version name
  agree : ∀ file ∈ files, ∀ other ∈ files, ∀ up otherUp version name otherName,
      NamedFor up file.name version name →
      NamedFor otherUp other.name version otherName → name = otherName
  content : ∀ file ∈ files, ∀ up version name,
    NamedFor up file.name version name → ∃ m ∈ ms, m.version = version ∧
      file.content = .ok (if up then m.up else m.down)
  ascending : ms.Pairwise fun a b => a.version < b.version

structure Unambiguous (ps : List ScriptFile) : Prop where
  direction : ∀ p ∈ ps, p.direction = "up" ∨ p.direction = "down"
  name : ∀ p ∈ ps, ∀ q ∈ ps, p.version = q.version → p.name = q.name
  content : ∀ p ∈ ps, ∀ q ∈ ps, p.version = q.version →
    p.direction = q.direction → p.content = q.content

variable {p : ScriptFile}

theorem exists_file (listed : p ∈ scripts files) :
    ∃ file ∈ files, parseName file.name = .ok (p.version, p.name, p.direction) ∧
        file.content = .ok p.content := by
  obtain ⟨file, mem, read⟩ := mem_filterMap.mp listed
  exact ⟨file, mem, MigrationFile.parse_eq_some_iff.mp read⟩

theorem exists_script (readable : ∀ file ∈ files, file.parse ≠ none)
    {file : MigrationFile} (mem : file ∈ files) {up : Bool} {version : Int} {name : String}
    (named : NamedFor up file.name version name) :
    ∃ content, file.content = .ok content ∧
      (⟨version, name, if up then "up" else "down", content⟩ : ScriptFile) ∈
        scripts files := by
  obtain ⟨p, parsed⟩ := ne_none_iff_exists'.mp (readable file mem)
  obtain ⟨called, read⟩ := MigrationFile.parse_eq_some_iff.mp parsed
  rw [namedFor_iff.mp named, ok.injEq, Prod.mk.injEq, Prod.mk.injEq] at called
  obtain ⟨rfl, rfl, direction⟩ := called
  rw [direction]
  exact ⟨p.content, read, mem_filterMap.mpr ⟨file, mem, parsed⟩⟩

theorem namedFor_of_direction {filename : String}
    (called : parseName filename = .ok (p.version, p.name, p.direction))
    (known : p.direction = "up" ∨ p.direction = "down") :
    NamedFor (p.direction == "up") filename p.version p.name := by
  rw [namedFor_iff, called]
  rcases known with up | down
  · simp [up]
  · simp [down]

theorem lastText_eq {ps : List ScriptFile} (clear : Unambiguous ps) (listed : p ∈ ps) :
    lastText ps p.version (p.direction == "up") = p.content := by
  have hit : (ps.reverse.find? fun q => q.version = p.version ∧
      (q.direction == "up") = (p.direction == "up")).isSome = true := by
    rw [find?_isSome]
    exact ⟨p, mem_reverse.mpr listed, by simp⟩
  obtain ⟨q, last⟩ := isSome_iff_exists.mp hit
  have eq := find?_some last
  have lastListed := mem_reverse.mp (mem_of_find?_eq_some last)
  simp only [decide_eq_true_eq] at eq
  have directions : q.direction = p.direction := by
    rcases clear.direction q lastListed with up | down <;>
      rcases clear.direction p listed with up' | down' <;> simp_all
  rw [lastText, last]
  exact clear.content q lastListed p listed eq.1 directions

theorem accountsFor_iff_unambiguous
    (arranges : ∀ list, (arrange list).Perm list) (sorts : Sorts sortSlice)
    (loaded : loadMigrations (.ok files) arrange sortSlice = .ok ms) :
    AccountsFor files ms ↔ Unambiguous (scripts files) := by
  have ascending := loadMigrations_ascending arranges sorts loaded
  obtain ⟨readable, -, rfl⟩ := (loadMigrations_eq_ok_iff arranges).mp loaded
  obtain ⟨perm, -⟩ := sorts weakOrder_before
    (arrange (collect (scripts files))) (fun _ _ => trivial)
  have mem_iff : ∀ {m}, m ∈ sortSlice before
      (arrange (collect (scripts files))) ↔ m ∈ collect (scripts files) :=
    (perm.trans (arranges _)).mem_iff
  constructor
  · intro accounts
    have direction : ∀ p ∈ scripts files, p.direction = "up" ∨ p.direction = "down" := by
      intro p listed
      obtain ⟨file, mem, called, -⟩ := exists_file listed
      obtain ⟨up, version, name, named⟩ := accounts.named file mem
      rw [namedFor_iff.mp named, ok.injEq, Prod.mk.injEq, Prod.mk.injEq] at called
      cases up with
      | false => exact .inr called.2.2.symm
      | true => exact .inl called.2.2.symm
    refine ⟨direction, ?_, ?_⟩
    · intro p listed q others eq
      obtain ⟨file, mem, called, -⟩ := exists_file listed
      obtain ⟨other, otherMember, otherCalled, -⟩ := exists_file others
      have named := namedFor_of_direction called (direction p listed)
      rw [eq] at named
      exact accounts.agree file mem other otherMember _ _ _ _ _ named
        (namedFor_of_direction otherCalled (direction q others))
    · intro p listed q others eq sameDirection
      obtain ⟨file, mem, called, read⟩ := exists_file listed
      obtain ⟨other, otherMember, otherCalled, otherRead⟩ := exists_file others
      obtain ⟨m, loadedM, versions, content⟩ := accounts.content file mem
        _ _ _ (namedFor_of_direction called (direction p listed))
      obtain ⟨n, loadedN, otherVersions, otherContent⟩ := accounts.content other otherMember
          _ _ _ (namedFor_of_direction otherCalled (direction q others))
      rw [read, ok.injEq, script_eq_lastText (mem_iff.mp loadedM), versions] at content
      rw [otherRead, ok.injEq,
        script_eq_lastText (mem_iff.mp loadedN), otherVersions] at otherContent
      rw [content, otherContent, eq, sameDirection]
  · intro clear
    refine ⟨?_, ?_, ?_, ascending⟩
    · intro file mem
      obtain ⟨p, parsed⟩ := ne_none_iff_exists'.mp (readable file mem)
      have listed : p ∈ scripts files := mem_filterMap.mpr ⟨file, mem, parsed⟩
      exact ⟨_, _, _, namedFor_of_direction (MigrationFile.parse_eq_some_iff.mp parsed).1
        (clear.direction p listed)⟩
    · intro file mem other otherMember up otherUp version name otherName named otherNamed
      obtain ⟨_, _, listed⟩ := exists_script readable mem named
      obtain ⟨_, _, others⟩ := exists_script readable otherMember otherNamed
      exact clear.name _ listed _ others rfl
    · intro file mem up version name named
      obtain ⟨content, read, listed⟩ := exists_script readable mem named
      have loadedM := mem_collect_iff.mpr ⟨_, listed, rfl⟩
      refine ⟨_, mem_iff.mpr loadedM, rfl, ?_⟩
      rw [read, script_eq_lastText loadedM]
      have text := lastText_eq clear listed
      cases up with
      | false | true => exact congrArg ok text.symm

def ClearOrRejected : Except String (List MigrationFile) → Prop
  | .error _ => True
  | .ok files =>
    Unambiguous (scripts files) ∨ (∃ file ∈ files, file.parse = none) ∨
      ∃ p ∈ scripts files, lastText (scripts files) p.version true = ""

theorem loadMigrations_accounts_iff
    (arranges : ∀ list, (arrange list).Perm list) (sorts : Sorts sortSlice)
    (entries : Except String (List MigrationFile)) :
    ((∃ detail, loadMigrations entries arrange sortSlice = .error detail) ∨
      ∃ files ms, entries = .ok files ∧ loadMigrations entries arrange sortSlice = .ok ms ∧
        AccountsFor files ms) ↔
      ClearOrRejected entries := by
  cases entries with
  | error detail => exact ⟨fun _ => trivial, fun _ => .inl ⟨_, rfl⟩⟩
  | ok files =>
    cases loaded : loadMigrations (.ok files) arrange sortSlice with
    | error detail =>
      refine ⟨fun _ => .inr ?_, fun _ => .inl ⟨detail, rfl⟩⟩
      by_contra noReason
      rw [not_or] at noReason
      have succeeds : loadMigrations (.ok files) arrange sortSlice =
          .ok _ := (loadMigrations_eq_ok_iff arranges).mpr
        ⟨fun file mem unread => noReason.1 ⟨file, mem, unread⟩,
          fun p listed empty => noReason.2 ⟨p, listed, empty⟩, rfl⟩
      rw [loaded] at succeeds
      cases succeeds
    | ok ms =>
      have clear := accountsFor_iff_unambiguous arranges sorts loaded
      obtain ⟨readable, full, -⟩ := (loadMigrations_eq_ok_iff arranges).mp loaded
      constructor
      · rintro (⟨detail, failed⟩ | ⟨read, res, ⟨⟩, ⟨⟩, accounts⟩)
        · cases failed
        · exact .inl (clear.mp accounts)
      · rintro (unambiguous | ⟨file, mem, unread⟩ | ⟨p, listed, empty⟩)
        · exact .inr ⟨files, ms, rfl, rfl, clear.mpr unambiguous⟩
        · exact absurd unread (readable file mem)
        · exact absurd empty (full p listed)

end

theorem loadMigrations_accounts_iff_init :
    Sorts (BinaryHeap.sort (α := Migration)) ∧
      ((∃ detail, loadMigrations (.ok [⟨"0001_init.down.sql", .ok "drop"⟩,
          ⟨"0001_init.up.sql", .ok "create"⟩]) id BinaryHeap.sort = .error detail) ∨
        ∃ files ms, Except.ok [⟨"0001_init.down.sql", .ok "drop"⟩,
            ⟨"0001_init.up.sql", .ok "create"⟩] = (.ok files : Except String (List MigrationFile)) ∧
          loadMigrations (.ok [⟨"0001_init.down.sql", .ok "drop"⟩,
            ⟨"0001_init.up.sql", .ok "create"⟩]) id BinaryHeap.sort = .ok ms ∧
          AccountsFor files ms) := by
  refine ⟨sorts_sort, (loadMigrations_accounts_iff (fun _ => .refl _) sorts_sort _).mpr (.inl ?_)⟩
  have read : scripts [⟨"0001_init.down.sql", .ok "drop"⟩, ⟨"0001_init.up.sql", .ok "create"⟩] =
        [⟨1, "init", "down", "drop"⟩, ⟨1, "init", "up", "create"⟩] := by
    decide +kernel
  rw [read]
  constructor <;> simp

theorem loadMigrations_loses :
    loadMigrations (.ok [⟨"0001_b.up.sql", .ok "create b"⟩,
        ⟨"1_a.up.sql", .ok "create a"⟩]) id BinaryHeap.sort = .ok [⟨1, "b", "create a", ""⟩] ∧
    loadMigrations (.ok [⟨"1_a.down.sql", .ok "drop"⟩,
        ⟨"1_a.seed.sql", .ok "insert"⟩, ⟨"1_a.up.sql", .ok "create"⟩]) id BinaryHeap.sort =
      .ok [⟨1, "a", "create", "insert"⟩] := by
  decide +kernel

end Simulator
