/-
  RuleEngine/Proofs/Configuration/Format.lean
  ===========================================
  **What is relied on of a format.**

  How a format spells a document is its own business.  Loading and saving rely on three
  things (`Format.Faithful`): what it prints it parses as the same settings, as long as the
  numbers have 64 bits with a sign; it skips the settings that are absent; and it refuses to
  print a larger number.  TOML keeps to them (`Format.toml_faithful`).
-/
import RuleEngine.Configuration.Format
import RuleEngine.Proofs.Toml.Document

namespace RuleEngine.Configuration

/-! ### Documents -/

def Setting.value? : Setting → Option Toml.Value
  | .truth b => some (.boolean b)
  | .count n => some (.integer n.toInt64)
  | .text s => some (.string s)
  | .absent => none

/-- The entries that settings are parsed as. -/
def values (settings : List (String × Setting)) : List (String × Toml.Value) :=
  settings.filterMap fun s => s.2.value?.map (s.1, ·)

/-- The entries that a document of groups is parsed as. -/
def documentEntries (groups : List Group) : List (String × Toml.Value) :=
  groups.map fun g => (g.name, .table (values g.settings))

/-- A number has 64 bits with a sign. -/
def Setting.InRange (s : Setting) : Prop := ∀ n, s = .count n → n.toNat < 2 ^ 63

/-- Groups and settings with bare names, which are all different. -/
structure Tidy (groups : List Group) : Prop where
  names : ∀ g ∈ groups, Toml.IsBare g.name
  keys : ∀ g ∈ groups, ∀ s ∈ g.settings, Toml.IsBare s.1
  distinct : (groups.map Group.name).Nodup
  distinctKeys : ∀ g ∈ groups, (g.settings.map Prod.fst).Nodup

/-- A format prints what it has room for so that it parses the same settings, without those
    that are absent, and refuses larger numbers. -/
structure Format.Faithful (format : Format) : Prop where
  parses : ∀ groups, Tidy groups → (∀ g ∈ groups, ∀ s ∈ g.settings, s.2.InRange) →
    ∃ text, format.print groups = .ok text ∧
      format.parse text = .ok (.table (documentEntries groups))
  refuses : ∀ groups, ∀ g ∈ groups, ∀ s ∈ g.settings, ¬ s.2.InRange →
    ∃ e, format.print groups = .error e

/-! ### Looking settings up -/

theorem lookupEntry_values {settings : List (String × Setting)} {key : String} {s : Setting}
    (distinct : (settings.map Prod.fst).Nodup) (mem : (key, s) ∈ settings) :
    lookupEntry key (values settings) = s.value? := by
  have skips : ∀ rest : List (String × Setting), key ∉ rest.map Prod.fst →
      lookupEntry key (values rest) = none := by
    intro rest absent
    rw [lookupEntry_eq_none_iff]
    intro found
    obtain ⟨e, inside, rfl⟩ := List.mem_map.mp found
    obtain ⟨t, within, spelled⟩ := List.mem_filterMap.mp inside
    obtain ⟨v, -, rfl⟩ := Option.map_eq_some_iff.mp spelled
    exact absent (List.mem_map_of_mem within)
  obtain ⟨before, after, rfl⟩ := List.append_of_mem mem
  rw [List.map_append, List.map_cons] at distinct
  have fresh := List.nodup_append.mp distinct
  have notBefore : key ∉ before.map Prod.fst := fun inside =>
    fresh.2.2 key inside key (List.mem_cons_self ..) rfl
  have notAfter : key ∉ after.map Prod.fst := (List.nodup_cons.mp fresh.2.1).1
  unfold values
  rw [List.filterMap_append, lookupEntry_append]
  rw [show lookupEntry key (before.filterMap _) = none from skips before notBefore, Option.none_or]
  rw [List.filterMap_cons]
  cases spelled : s.value? with
  | none => exact skips after notAfter
  | some v => simp [lookupEntry]

/-! ### TOML -/

theorem Setting.fault?_eq_none_iff (s : Setting) : s.fault? = none ↔ s.InRange := by
  unfold Setting.InRange
  cases s with
  | count n =>
    have last : Int64.maxValue.toUInt64.toNat = 2 ^ 63 - 1 := by decide
    have range : n ≤ Int64.maxValue.toUInt64 ↔ n.toNat < 2 ^ 63 := by
      rw [UInt64.le_iff_toNat_le]
      omega
    rw [Setting.fault?]
    constructor
    · rintro none m ⟨⟩
      split_ifs at none with small
      exact range.mp small
    · intro small
      rw [if_pos (range.mpr (small n rfl))]
  | truth b => exact ⟨fun _ => nofun, fun _ => rfl⟩
  | text s => exact ⟨fun _ => nofun, fun _ => rfl⟩
  | absent => exact ⟨fun _ => nofun, fun _ => rfl⟩

theorem Setting.value?_eq (s : Setting) : s.value? = s.scalar?.map Toml.Scalar.value := by
  cases s <;> rfl

theorem values_eq (settings : List (String × Setting)) :
    values settings =
      (settings.filterMap fun s => s.2.scalar?.map (s.1, ·)).map fun e => (e.1, e.2.value) := by
  unfold values
  rw [List.map_filterMap]
  congr 1
  funext s
  rw [Setting.value?_eq, Option.map_map, Option.map_map]
  rfl

theorem documentEntries_eq (groups : List Group) :
    documentEntries groups = (groups.map Group.section).map fun s => (s.name, s.value) := by
  unfold documentEntries
  rw [List.map_map]
  refine List.map_congr_left fun g _ => ?_
  rw [values_eq]
  rfl

theorem keys_section (g : Group) :
    (g.section.entries.map Prod.fst).Sublist (g.settings.map Prod.fst) := by
  show ((g.settings.filterMap _).map Prod.fst).Sublist _
  induction g.settings with
  | nil => exact List.Sublist.refl _
  | cons s rest ih =>
    rw [List.filterMap_cons]
    cases s.2.scalar? with
    | none => exact ih.cons _
    | some v => exact ih.cons_cons _

theorem Tidy.sections {groups : List Group} (h : Tidy groups) :
    Toml.Tidy (groups.map Group.section) where
  names := by
    intro s mem
    obtain ⟨g, inside, rfl⟩ := List.mem_map.mp mem
    exact h.names g inside
  keys := by
    intro s mem e within
    obtain ⟨g, inside, rfl⟩ := List.mem_map.mp mem
    have key := (keys_section g).subset (List.mem_map_of_mem within)
    obtain ⟨t, there, same⟩ := List.mem_map.mp key
    rw [← same]
    exact h.keys g inside t there
  distinct := by
    rw [List.map_map]
    exact h.distinct
  distinctKeys := by
    intro s mem
    obtain ⟨g, inside, rfl⟩ := List.mem_map.mp mem
    exact (h.distinctKeys g inside).sublist (keys_section g)

theorem Format.toml_faithful : Format.toml.Faithful where
  parses := by
    intro groups tidy range
    have whole : (groups.flatMap Group.settings).findSome? (·.2.fault?) = none := by
      rw [List.findSome?_eq_none_iff]
      intro s mem
      obtain ⟨g, inside, within⟩ := List.mem_flatMap.mp mem
      exact (s.2.fault?_eq_none_iff).mpr (range g inside s within)
    refine ⟨Toml.documentText (groups.map Group.section), ?_, ?_⟩
    · simp only [Format.toml, whole]
    · rw [documentEntries_eq]
      exact Toml.read_documentText tidy.sections
  refuses := by
    intro groups g inside s within larger
    have found : (groups.flatMap Group.settings).findSome? (·.2.fault?) ≠ none := by
      intro none
      rw [List.findSome?_eq_none_iff] at none
      exact larger ((s.2.fault?_eq_none_iff).mp
        (none s (List.mem_flatMap.mpr ⟨g, inside, within⟩)))
    obtain ⟨e, first⟩ := Option.ne_none_iff_exists'.mp found
    exact ⟨e, by simp only [Format.toml, first]⟩

end RuleEngine.Configuration
