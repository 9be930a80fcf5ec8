/-
  RuleEngine/Proofs/Configuration/Storing.lean
  ============================================
  **Saving and loading a configuration.**

  What a configuration is handed to a format as gives all its settings, so loading it
  again gives the same configuration, by any format that is faithful.  A number of more
  than 63 bits or a directory that is no text makes it impossible to write; then nothing
  is touched but the directories around the file.
-/
import RuleEngine.Configuration.File
import RuleEngine.Proofs.Configuration.Given
import RuleEngine.Proofs.FileTree
import RuleEngine.Proofs.Text.Utf8

namespace RuleEngine

/-! ### Paths as texts -/

theorem NativePath.text?_ofText (text : String) : (NativePath.ofText text).text? = some text :=
  Text.decodeUtf8?_encodeUtf8 text

theorem NativePath.eq_ofText {path : NativePath} {text : String} (h : path.text? = some text) :
    path = .ofText text := by
  rw [NativePath.ofText, Text.encodeUtf8_of_decodeUtf8? h]

namespace Configuration

/-! ### Configurations that can be written -/

/-- The numbers of a configuration have 64 bits with a sign, and its directory is a text. -/
structure Storable (c : Configuration) : Prop where
  scanInterval : c.expansions.scanInterval.toNat < 2 ^ 63
  fuel : c.expansions.fuel.toNat < 2 ^ 63
  tick : c.scheduler.tick.toNat < 2 ^ 63
  directory : ∀ path, c.expansions.directory? = some path → ∃ text, path = .ofText text

def given (c : Configuration) : Given where
  enabled? := some c.expansions.enabled
  directory? := c.expansions.directory?.bind NativePath.text?
  hotReload? := some c.expansions.hotReload
  scanInterval? := some c.expansions.scanInterval
  fuel? := some c.expansions.fuel
  tick? := some c.scheduler.tick
  toFile? := some c.log.toFile

variable {c : Configuration}

theorem Storable.inRange (h : c.Storable) : c.given.InRange where
  scanInterval := by rintro n ⟨⟩; exact h.scanInterval
  fuel := by rintro n ⟨⟩; exact h.fuel
  tick := by rintro n ⟨⟩; exact h.tick

theorem Storable.configuration_given (h : c.Storable) : c.given.configuration = c := by
  have directory : (c.expansions.directory?.bind NativePath.text?).map NativePath.ofText =
      c.expansions.directory? := by
    cases set : c.expansions.directory? with
    | none => rfl
    | some path =>
      obtain ⟨text, rfl⟩ := h.directory path set
      rw [Option.bind_some, NativePath.text?_ofText, Option.map_some]
  unfold Given.configuration given
  dsimp only
  rw [directory]
  rfl

/-- A configuration that can be written is handed over as all its settings. -/
theorem Storable.groups_eq (h : c.Storable) : c.groups = .ok c.given.groups := by
  have directory : directorySetting c.expansions.directory? =
      .ok (.ofGiven .text (c.expansions.directory?.bind NativePath.text?)) := by
    cases set : c.expansions.directory? with
    | none => rfl
    | some path =>
      obtain ⟨text, rfl⟩ := h.directory path set
      simp only [directorySetting, NativePath.text?_ofText, Option.bind_some]
      rfl
  rw [groups, directory]
  rfl

/-- What is handed over holds the settings, and its numbers are in range only if those of the
    configuration are. -/
theorem storable_of_groups {handed : List Group} (h : c.groups = .ok handed)
    (range : ∀ group ∈ handed, ∀ s ∈ group.settings, s.2.InRange) : c.Storable := by
  have directory : ∀ path, c.expansions.directory? = some path → ∃ text, path = .ofText text := by
    intro path set
    cases spelled : path.text? with
    | some text => exact ⟨text, NativePath.eq_ofText spelled⟩
    | none =>
      rw [groups, set, directorySetting, spelled] at h
      cases h
  obtain ⟨setting, dir⟩ : ∃ setting, directorySetting c.expansions.directory? = .ok setting := by
    cases dir : directorySetting c.expansions.directory? with
    | ok setting => exact ⟨setting, rfl⟩
    | error e =>
      rw [groups, dir] at h
      cases h
  rw [groups, dir] at h
  cases h
  constructor
  · exact range _ (List.mem_cons_self ..) ("hot_reload_interval_ms", _) (by simp) _ rfl
  · exact range _ (List.mem_cons_self ..) ("fuel_per_call", _) (by simp) _ rfl
  · exact range _ (List.mem_cons_of_mem _ (List.mem_cons_self ..)) ("tick_interval_ms", _)
      (by simp) _ rfl
  · exact directory

section Formats

variable {format : Format} (faithful : format.Faithful)

include faithful

/-- The text of a configuration gives all its settings. -/
theorem Storable.text_eq (h : c.Storable) : ∃ text, format.text c = .ok text ∧
    format.parse text = .ok (.table (documentEntries c.given.groups)) := by
  obtain ⟨text, printed, parsed⟩ :=
    faithful.parses c.given.groups (tidy_groups c.given) h.inRange.groups
  refine ⟨text, ?_, parsed⟩
  rw [Format.text, h.groups_eq]
  exact printed

theorem storable_of_text {text : String} (h : format.text c = .ok text) : c.Storable := by
  rw [Format.text] at h
  cases handed : c.groups with
  | error e =>
    rw [handed] at h
    cases h
  | ok groups =>
    rw [handed] at h
    refine storable_of_groups handed fun group mem s inside => ?_
    by_contra larger
    obtain ⟨e, refused⟩ := faithful.refuses groups group mem s inside larger
    have printed : format.print groups = .ok text := h
    rw [refused] at printed
    cases printed

end Formats

/-! ### Loading -/

section Loading

variable {format : Format} {files : FileTree} {path text : String}
  {entries : List (String × Toml.Value)} {g : Given}

theorem load_of_readText? (readable : files.readText? path = some text) :
    format.load files path = format.read text := by
  have content : ∃ content, files.read? path = some content := by
    unfold FileTree.readText? at readable
    split at readable
    · exact ⟨_, ‹_›⟩
    · cases readable
  obtain ⟨content, there⟩ := content
  rw [Format.load, FileTree.isThere_of_read? there, readable]
  rfl

/-- A document of a table that gives some settings is read as these, with defaults. -/
theorem read_of_gives (document : format.parse text = .ok (.table entries))
    (gives : Gives entries g) (range : g.InRange) : format.read text = .ok g.configuration := by
  rw [Format.read, document]
  change (ofEntries entries).mapError LoadError.wrongType = _
  rw [ofEntries_of_gives gives range]
  rfl

end Loading

/-! ### Saving -/

section Saving

variable {format : Format} (faithful : format.Faithful) (files : FileTree) (path : String)
  (now : Nat)

include faithful

theorem save_of_not_storable (h : ¬ c.Storable) :
    (∃ e, (format.save c files path now).1 = .error e) ∧
      (format.save c files path now).2 = (files.makeParents path).2 := by
  unfold Format.save
  cases made : files.makeParents path with
  | mk ok grown =>
    cases ok with
    | false => exact ⟨⟨_, rfl⟩, rfl⟩
    | true =>
      cases text : format.text c with
      | error e => exact ⟨⟨_, rfl⟩, rfl⟩
      | ok text => exact absurd (storable_of_text faithful text) h

theorem save_of_storable (h : c.Storable) :
    ((format.save c files path now).1 = .ok () ↔ files.Accepts path) ∧
      ((format.save c files path now).1 = .ok () →
        format.load (format.save c files path now).2 path = .ok c) := by
  obtain ⟨text, printed, parsed⟩ := h.text_eq faithful
  unfold Format.save FileTree.Accepts
  rw [printed]
  generalize files.makeParents path = made
  obtain ⟨ok, grown⟩ := made
  cases ok with
  | false => simp
  | true =>
    dsimp only
    cases written : grown.overwrite? path (.bytes (Text.encodeUtf8 text)) now with
    | none =>
      have blocked : ¬ ∃ place, grown.locate? path = some place ∧
          grown.isDirectory place = false := by
        rw [← FileTree.overwrite?_isSome_iff _ now, written]
        exact Bool.false_ne_true
      simp [blocked]
    | some files =>
      have place := (FileTree.overwrite?_isSome_iff _ now).1 (Option.isSome_of_eq_some written)
      have readable : files.readText? path = some text := by
        rw [FileTree.readText?, FileTree.read?_of_overwrite? written]
        exact Text.decodeUtf8?_encodeUtf8 _
      refine ⟨⟨fun _ => ⟨rfl, place⟩, fun _ => rfl⟩, fun _ => ?_⟩
      rw [load_of_readText? readable, read_of_gives parsed (gives_groups c.given) h.inRange,
        h.configuration_given]

end Saving

/-- **Saving and loading.**  By a faithful format, a configuration that can be written is saved
    wherever the files take it, and loaded again from the same path it is the same.  One that
    cannot be written is not saved, and every file keeps its content.  A file that gives some
    settings is loaded as these, with the defaults for all others, and the format prints such a
    file for any selection of settings. -/
theorem storing_is_faithful (format : Format) (faithful : format.Faithful) :
    (∀ (c : Configuration) (files : FileTree) (path : String) (now : Nat), c.Storable →
      ((format.save c files path now).1 = .ok () ↔ files.Accepts path) ∧
      ((format.save c files path now).1 = .ok () →
        format.load (format.save c files path now).2 path = .ok c)) ∧
    (∀ (files : FileTree) (path : String) (content : FileContent),
      files.read? path = some content → files.Accepts path) ∧
    (∀ (c : Configuration) (files : FileTree) (path : String) (now : Nat), ¬ c.Storable →
      (∃ e, (format.save c files path now).1 = .error e) ∧
      ∀ other content, files.read? other = some content →
        (format.save c files path now).2.read? other = some content) ∧
    (∀ (files : FileTree) (path text : String) (entries : List (String × Toml.Value)) (g : Given),
      files.readText? path = some text → format.parse text = .ok (.table entries) →
      Gives entries g → g.InRange → format.load files path = .ok g.configuration) ∧
    ∀ g : Given, g.InRange → ∃ text, format.print g.groups = .ok text ∧
      format.parse text = .ok (.table (documentEntries g.groups)) ∧
      Gives (documentEntries g.groups) g := by
  refine ⟨?_, ?_, ?_, ?_, ?_⟩
  · intro c files path now storable
    exact save_of_storable faithful files path now storable
  · intro files path content there
    exact FileTree.accepts_of_read? there
  · intro c files path now unstorable
    obtain ⟨failed, grown⟩ := save_of_not_storable faithful files path now unstorable
    refine ⟨failed, fun other content there => ?_⟩
    rw [grown]
    exact (FileTree.kept_makeParents files path).read? there
  · intro files path text entries g readable document gives range
    rw [load_of_readText? readable]
    exact read_of_gives document gives range
  · intro g range
    obtain ⟨text, printed, parsed⟩ := faithful.parses g.groups (tidy_groups g) range.groups
    exact ⟨text, printed, parsed, gives_groups g⟩

/-- A configuration with a directory that needs escapes. -/
def quotedDirectory : Configuration :=
  { expansions := { directory? := some (.ofText "a \"b\"\n'c' \\"), fuel := 42 } }

/-- A configuration with a tick that is beyond the range of TOML. -/
def endlessTick : Configuration := { scheduler := { tick := 0x8000000000000000 } }

/-- A configuration with a directory that is no text. -/
def wildDirectory : Configuration := { expansions := { directory? := some ⟨[0xFF]⟩ } }

def tickText : String := Toml.documentText ((Given.groups { tick? := some 7 }).map Group.section)

def tickFile : FileTree :=
  { entries := [(["config.toml"], .file (.bytes (Text.encodeUtf8 tickText)) 0)] }

/-- A directory that needs escapes comes back from a file that is made with the directories around
    it.  A tick that is too large, and a directory that is no text, leave the file as it was.  A
    file that gives the tick only has the defaults for the rest. -/
theorem storing_is_faithful_nested :
    (quotedDirectory.save {} "nested/config.toml" 0).1 = .ok () ∧
    load (quotedDirectory.save {} "nested/config.toml" 0).2 "nested/config.toml" =
      .ok quotedDirectory ∧
    (∀ c ∈ [endlessTick, wildDirectory],
      (∃ e, (c.save tickFile "config.toml" 1).1 = .error e) ∧
      (c.save tickFile "config.toml" 1).2.read? "config.toml" = tickFile.read? "config.toml") ∧
    tickFile.Accepts "config.toml" ∧
    load tickFile "config.toml" = .ok { scheduler := { tick := 7 } } := by
  obtain ⟨saves, accepts, keeps, loads, documents⟩ :=
    storing_is_faithful Format.toml Format.toml_faithful
  have storable : quotedDirectory.Storable :=
    ⟨by decide, by decide, by decide, fun path set => ⟨_, (Option.some.inj set).symm⟩⟩
  have nested : FileTree.Accepts {} "nested/config.toml" :=
    ⟨by decide +kernel, ["nested", "config.toml"], by decide +kernel, by decide +kernel⟩
  obtain ⟨saved, loaded⟩ := saves quotedDirectory {} "nested/config.toml" 0 storable
  have unstorable : ∀ c ∈ [endlessTick, wildDirectory], ¬ c.Storable := by
    intro c mem h
    rw [List.mem_cons, List.mem_singleton] at mem
    rcases mem with rfl | rfl
    · exact absurd h.tick (by decide)
    · obtain ⟨text, spelled⟩ := h.directory _ rfl
      have text? : NativePath.text? ⟨[0xFF]⟩ = some text :=
        (congrArg NativePath.text? spelled).trans (NativePath.text?_ofText text)
      have spellsNone : NativePath.text? ⟨[0xFF]⟩ = none := by
        decide +kernel
      rw [spellsNone] at text?
      cases text?
  have place : tickFile.locate? "config.toml" = some ["config.toml"] := by
    decide +kernel
  have there : tickFile.read? "config.toml" = some (.bytes (Text.encodeUtf8 tickText)) := by
    rw [FileTree.read?, place]
    rfl
  have readable : tickFile.readText? "config.toml" = some tickText := by
    rw [FileTree.readText?, there]
    exact Text.decodeUtf8?_encodeUtf8 _
  obtain ⟨text, printed, document, gives⟩ := documents { tick? := some 7 }
    ⟨by simp, by simp, by simp⟩
  cases printed
  refine ⟨saved.2 nested, loaded (saved.2 nested), fun c mem => ?_, accepts _ _ _ there,
    loads _ _ _ _ _ readable document gives ⟨by simp, by simp, by simp⟩⟩
  obtain ⟨failed, kept⟩ := keeps c tickFile "config.toml" 1 (unstorable c mem)
  exact ⟨failed, (kept _ _ there).trans there.symm⟩

end Configuration

end RuleEngine
