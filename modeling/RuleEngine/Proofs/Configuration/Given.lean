/-
  RuleEngine/Proofs/Configuration/Given.lean
  ==========================================
  **The settings that a file gives.**

  A file gives some of the settings, in groups that may be missing with all they
  hold.  The configuration that is loaded has these, and the default for each other
  one, whatever else stands in the file.  Any selection of settings can be written
  as a document, and its table gives exactly the selected ones.
-/
import RuleEngine.Configuration.OfToml
import RuleEngine.Proofs.Configuration.Format

namespace RuleEngine.Configuration

/-! ### Selections of settings -/

structure Given where
  enabled? : Option Bool := none
  directory? : Option String := none
  hotReload? : Option Bool := none
  scanInterval? : Option UInt64 := none
  fuel? : Option UInt64 := none
  tick? : Option UInt64 := none
  toFile? : Option Bool := none

namespace Given

/-- The configuration with the given settings, and the defaults for all others. -/
def configuration (g : Given) : Configuration where
  expansions := {
    enabled := g.enabled?.getD true
    directory? := g.directory?.map .ofText
    hotReload := g.hotReload?.getD true
    scanInterval := g.scanInterval?.getD 1000
    fuel := g.fuel?.getD 10000000 }
  scheduler := { tick := g.tick?.getD 50 }
  log := { toFile := g.toFile?.getD false }

structure InRange (g : Given) : Prop where
  scanInterval : ∀ n ∈ g.scanInterval?, n.toNat < 2 ^ 63
  fuel : ∀ n ∈ g.fuel?, n.toNat < 2 ^ 63
  tick : ∀ n ∈ g.tick?, n.toNat < 2 ^ 63

end Given

/-! ### Tables that give settings -/

/-- The settings of a group, none if the group is missing. -/
def groupEntries (entries : List (String × Toml.Value)) (group : String) :
    List (String × Toml.Value) :=
  match lookupEntry group entries with
  | some (.table settings) => settings
  | _ => []

/-- A group is missing, or a table. -/
def IsGroup (entries : List (String × Toml.Value)) (group : String) : Prop :=
  ∀ value, lookupEntry group entries = some value → ∃ settings, value = .table settings

def countValue (n : UInt64) : Toml.Value := .integer n.toInt64

/-- The table of a document gives these settings and no others; what has another name
    does not count. -/
structure Gives (entries : List (String × Toml.Value)) (g : Given) : Prop where
  groups : ∀ group ∈ ["expansions", "scheduler", "logging"], IsGroup entries group
  enabled : lookupEntry "enabled" (groupEntries entries "expansions") = g.enabled?.map .boolean
  directory : lookupEntry "dir" (groupEntries entries "expansions") = g.directory?.map .string
  hotReload :
    lookupEntry "hot_reload" (groupEntries entries "expansions") = g.hotReload?.map .boolean
  scanInterval : lookupEntry "hot_reload_interval_ms" (groupEntries entries "expansions") =
    g.scanInterval?.map countValue
  fuel : lookupEntry "fuel_per_call" (groupEntries entries "expansions") = g.fuel?.map countValue
  tick : lookupEntry "tick_interval_ms" (groupEntries entries "scheduler") = g.tick?.map countValue
  toFile : lookupEntry "file" (groupEntries entries "logging") = g.toFile?.map .boolean

/-! ### Loading -/

theorem truth?_boolean (b : Bool) : truth? (.boolean b) = some b := rfl

theorem path?_string (text : String) :
    (path? (.string text)).map some = some (some (NativePath.ofText text)) := rfl

theorem count?_countValue {n : UInt64} (small : n.toNat < 2 ^ 63) :
    count? (countValue n) = some n := by
  have value : n.toInt64.toInt = n.toNat := by
    rw [Int64.toInt, UInt64.toBitVec_toInt64, BitVec.toInt_eq_toNat_of_lt]
    · rfl
    · simpa using by omega
  have positive : 0 ≤ n.toInt64 := by
    rw [Int64.le_iff_toInt_le, value]
    exact Int.natCast_nonneg _
  rw [countValue, count?, if_pos positive]
  exact congrArg some (UInt64.toUInt64_toInt64 n)

/-- A setting that is given is taken, for another the default stands. -/
theorem setting_of_lookup {α β : Type} {entries : List (String × Toml.Value)} {name : String}
    {given? : Option β} {write : β → Toml.Value} {read : Toml.Value → Option α} {value : β → α}
    (found : lookupEntry name entries = given?.map write)
    (reads : ∀ x ∈ given?, read (write x) = some (value x)) (default : α) :
    setting entries name read default = .ok ((given?.map value).getD default) := by
  rw [setting, found]
  cases given? with
  | none => rfl
  | some x =>
    have taken := reads x rfl
    simp [taken]

/-- A group that may be missing is read as the entries that it holds, if any. -/
theorem settings_of_group {α : Type} {entries : List (String × Toml.Value)} {group : String}
    (h : IsGroup entries group) (names : List String)
    (read : List (String × Toml.Value) → Except String α) :
    settings entries group names read = read (groupEntries entries group) := by
  unfold settings groupEntries
  cases found : lookupEntry group entries with
  | none => rfl
  | some value =>
    obtain ⟨inner, rfl⟩ := h value found
    rfl

/-- The configuration of a table has the settings that it gives, and defaults. -/
theorem ofEntries_of_gives {entries : List (String × Toml.Value)} {g : Given}
    (h : Gives entries g) (range : g.InRange) : ofEntries entries = .ok g.configuration := by
  have expansions : readExpansions (groupEntries entries "expansions") =
      .ok g.configuration.expansions := by
    rw [readExpansions]
    dsimp only
    rw [setting_of_lookup h.enabled fun b _ => truth?_boolean b,
      setting_of_lookup h.directory fun text _ => path?_string text,
      setting_of_lookup h.hotReload fun b _ => truth?_boolean b,
      setting_of_lookup h.scanInterval fun n given =>
        count?_countValue (range.scanInterval n given),
      setting_of_lookup h.fuel fun n given => count?_countValue (range.fuel n given)]
    cases given : g.directory? <;>
      simp [Given.configuration, given, pure, Except.pure, bind, Except.bind]
  have scheduler : readScheduler (groupEntries entries "scheduler") =
      .ok g.configuration.scheduler := by
    rw [readScheduler]
    dsimp only
    rw [setting_of_lookup h.tick fun n given => count?_countValue (range.tick n given)]
    simp [Given.configuration, pure, Except.pure, bind, Except.bind]
  have log : readLog (groupEntries entries "logging") = .ok g.configuration.log := by
    rw [readLog]
    dsimp only
    rw [setting_of_lookup h.toFile fun b _ => truth?_boolean b]
    simp [Given.configuration, pure, Except.pure, bind, Except.bind]
  rw [ofEntries, settings_of_group (h.groups _ (by simp)), settings_of_group (h.groups _ (by simp)),
    settings_of_group (h.groups _ (by simp)), expansions, scheduler, log]
  rfl

/-! ### Writing a selection -/

/-- A setting that is given, or absent. -/
def Setting.ofGiven {α : Type} (write : α → Setting) (given? : Option α) : Setting :=
  given?.elim .absent write

/-- The groups that hold exactly the given settings. -/
def Given.groups (g : Given) : List Group :=
  [⟨"expansions", [("enabled", .ofGiven .truth g.enabled?), ("dir", .ofGiven .text g.directory?),
      ("hot_reload", .ofGiven .truth g.hotReload?),
      ("hot_reload_interval_ms", .ofGiven .count g.scanInterval?),
      ("fuel_per_call", .ofGiven .count g.fuel?)]⟩,
    ⟨"scheduler", [("tick_interval_ms", .ofGiven .count g.tick?)]⟩,
    ⟨"logging", [("file", .ofGiven .truth g.toFile?)]⟩]

section Writing

variable {α : Type} {write : α → Setting} {given? : Option α}

theorem Setting.value?_ofGiven {value : α → Toml.Value}
    (h : ∀ x, (write x).value? = some (value x)) :
    (ofGiven write given?).value? = given?.map value := by
  cases given? with
  | none => rfl
  | some x => exact h x

theorem Setting.ofGiven_inRange (h : ∀ x ∈ given?, (write x).InRange) :
    (ofGiven write given?).InRange := by
  cases given? with
  | none => exact fun n absent => nomatch absent
  | some x => exact h x rfl

theorem Setting.count_inRange {n : UInt64} (small : n.toNat < 2 ^ 63) : (count n).InRange := by
  rintro m ⟨⟩
  exact small

end Writing

variable (g : Given)

theorem tidy_groups : Tidy g.groups := by
  have expansions : ∀ name ∈ "expansions" :: expansionNames, Toml.IsBare name := by
    decide +kernel
  have scheduler : ∀ name ∈ ["scheduler", "tick_interval_ms"], Toml.IsBare name := by
    decide +kernel
  have log : ∀ name ∈ ["logging", "file"], Toml.IsBare name := by
    decide +kernel
  -- the keys of a group are its names, whatever is given
  have named : ∀ group ∈ g.groups, ∃ names : List String,
      group.settings.map Prod.fst = names ∧ names.Nodup ∧
        ∀ name ∈ group.name :: names, Toml.IsBare name := by
    intro group mem
    simp only [Given.groups, List.mem_cons, List.not_mem_nil, or_false] at mem
    rcases mem with rfl | rfl | rfl
    · exact ⟨expansionNames, rfl, by decide, expansions⟩
    · exact ⟨["tick_interval_ms"], rfl, by decide, scheduler⟩
    · exact ⟨["file"], rfl, by decide, log⟩
  constructor
  · intro group mem
    obtain ⟨names, -, -, bare⟩ := named group mem
    exact bare _ (List.mem_cons_self ..)
  · intro group mem s inside
    obtain ⟨names, rfl, -, bare⟩ := named group mem
    exact bare _ (List.mem_cons_of_mem _ (List.mem_map_of_mem inside))
  · show ["expansions", "scheduler", "logging"].Nodup
    decide
  · intro group mem
    obtain ⟨names, rfl, distinct, -⟩ := named group mem
    exact distinct

variable {g}

/-- The numbers of the groups are those that are given. -/
theorem Given.InRange.groups (range : g.InRange) :
    ∀ group ∈ g.groups, ∀ s ∈ group.settings, s.2.InRange := by
  have count : ∀ given? : Option UInt64, (∀ n ∈ given?, n.toNat < 2 ^ 63) →
      (Setting.ofGiven .count given?).InRange :=
    fun given? small => Setting.ofGiven_inRange fun n given => Setting.count_inRange (small n given)
  have truth : ∀ given? : Option Bool, (Setting.ofGiven .truth given?).InRange :=
    fun given? => Setting.ofGiven_inRange fun b _ n other => nomatch other
  have text : ∀ given? : Option String, (Setting.ofGiven .text given?).InRange :=
    fun given? => Setting.ofGiven_inRange fun s _ n other => nomatch other
  intro group mem s inside
  simp only [Given.groups, List.mem_cons, List.not_mem_nil, or_false] at mem
  rcases mem with rfl | rfl | rfl
  · simp only [List.mem_cons, List.not_mem_nil, or_false] at inside
    rcases inside with rfl | rfl | rfl | rfl | rfl
    · exact truth _
    · exact text _
    · exact truth _
    · exact count _ range.scanInterval
    · exact count _ range.fuel
  · rw [List.mem_singleton] at inside
    subst inside
    exact count _ range.tick
  · rw [List.mem_singleton] at inside
    subst inside
    exact truth _

theorem lookupEntry_documentEntries {groups : List Group} {group : Group} (tidy : Tidy groups)
    (mem : group ∈ groups) :
    lookupEntry group.name (documentEntries groups) = some (.table (values group.settings)) := by
  refine lookupEntry_of_mem ?_ (List.mem_map.mpr ⟨group, mem, rfl⟩)
  unfold documentEntries
  rw [List.map_map]
  exact tidy.distinct

/-- What a document of groups gives under a name. -/
theorem lookupEntry_groupEntries {α : Type} {groups : List Group} {group : Group}
    (tidy : Tidy groups)
    (mem : group ∈ groups) (write : α → Setting) {value : α → Toml.Value}
    (writes : ∀ x, (write x).value? = some (value x)) {key : String} {given? : Option α}
    (inside : (key, .ofGiven write given?) ∈ group.settings) :
    lookupEntry key (groupEntries (documentEntries groups) group.name) = given?.map value := by
  unfold groupEntries
  rw [lookupEntry_documentEntries tidy mem]
  dsimp only
  rw [lookupEntry_values (tidy.distinctKeys group mem) inside, Setting.value?_ofGiven writes]

/-- The document of a selection gives just that. -/
theorem gives_groups (g : Given) : Gives (documentEntries g.groups) g := by
  have tidy := tidy_groups g
  have truth : ∀ b, (Setting.truth b).value? = some (.boolean b) := fun b => rfl
  have count : ∀ n, (Setting.count n).value? = some (countValue n) := fun n => rfl
  have text : ∀ s, (Setting.text s).value? = some (.string s) := fun s => rfl
  constructor
  case groups =>
    intro group mem value found
    obtain ⟨written, -, same⟩ := List.mem_map.mp (mem_of_lookupEntry found)
    cases same
    exact ⟨_, rfl⟩
  case tick =>
    exact lookupEntry_groupEntries tidy (List.mem_cons_of_mem _ (List.mem_cons_self ..)) .count
      count
      (by simp)
  case toFile =>
    exact lookupEntry_groupEntries tidy
      (List.mem_cons_of_mem _ (List.mem_cons_of_mem _ (List.mem_cons_self ..))) .truth truth
      (by simp)
  case directory =>
    exact lookupEntry_groupEntries tidy (List.mem_cons_self ..) .text text (by simp)
  case scanInterval =>
    exact lookupEntry_groupEntries tidy (List.mem_cons_self ..) .count count (by simp)
  case fuel =>
    exact lookupEntry_groupEntries tidy (List.mem_cons_self ..) .count count (by simp)
  all_goals
    exact lookupEntry_groupEntries tidy (List.mem_cons_self ..) .truth truth (by simp)

end RuleEngine.Configuration
