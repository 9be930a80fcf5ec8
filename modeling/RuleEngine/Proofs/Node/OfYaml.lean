/-
  RuleEngine/Proofs/Node/OfYaml.lean
  ==================================
  **What a tree keeps of a YAML value.**

  The keys of a YAML mapping are values of any kind, those of a map in a tree are texts.  A
  tree keeps a mapping if its map has as many entries in the same order, each with what the
  value at that place becomes (`Yaml.Value.KeptBy`).  Keys that differ can become the same
  text, such as the number `1` and the string `"1"`.  Their entries are made one, which stands
  where the first was declared and holds the value of the last.  So all mappings of a value
  are kept exactly if the keys of each become different texts (`Node.ofYaml_keeps_iff`), as
  strings do.
-/
import RuleEngine.Node.OfYaml
import RuleEngine.Proofs.Entries

namespace RuleEngine

namespace Yaml

/-! ### The mappings within a value -/

mutual

/-- Every mapping within a value, at any depth, satisfies a condition. -/
def Value.EveryMapping (p : List (Value × Value) → Prop) : Value → Prop
  | .sequence items => itemsEvery p items
  | .mapping entries => p entries ∧ entriesEvery p entries
  | .tagged _ content => content.EveryMapping p
  | _ => True

def itemsEvery (p : List (Value × Value) → Prop) : List Value → Prop
  | [] => True
  | v :: rest => v.EveryMapping p ∧ itemsEvery p rest

def entriesEvery (p : List (Value × Value) → Prop) : List (Value × Value) → Prop
  | [] => True
  | e :: rest => entryEvery p e ∧ entriesEvery p rest

def entryEvery (p : List (Value × Value) → Prop) : Value × Value → Prop
  | (_, v) => v.EveryMapping p

end

/-- No two keys of a mapping are the same value. -/
def KeysDistinct (entries : List (Value × Value)) : Prop :=
  entries.Pairwise fun e f => e.1.same f.1 = false

/-- No two keys of a mapping become the same text. -/
def KeysApart (entries : List (Value × Value)) : Prop := (entries.map fun e => e.1.keyText).Nodup

def KeysAreStrings (entries : List (Value × Value)) : Prop := ∀ e ∈ entries, ∃ s, e.1 = .string s

/-- Different strings are different texts. -/
theorem KeysDistinct.apart {entries : List (Value × Value)} (distinct : KeysDistinct entries)
    (strings : KeysAreStrings entries) : KeysApart entries := by
  refine List.pairwise_map.mpr (distinct.imp_of_mem fun {e f} he hf hne htext => ?_)
  obtain ⟨s, hs⟩ := strings e he
  obtain ⟨t, ht⟩ := strings f hf
  rw [hs, ht] at htext hne
  simp only [Value.keyText] at htext
  simp [Value.same, htext] at hne

mutual

/-- Keys that are distinct strings become distinct texts. -/
theorem Value.keysApart_of_strings (v : Value) (distinct : v.EveryMapping KeysDistinct)
    (strings : v.EveryMapping KeysAreStrings) : v.EveryMapping KeysApart := by
  cases v with
  | sequence items => exact itemsKeysApart_of_strings items distinct strings
  | mapping entries =>
    refine ⟨distinct.1.apart strings.1, ?_⟩
    exact entriesKeysApart_of_strings entries distinct.2 strings.2
  | tagged tag content => exact Value.keysApart_of_strings content distinct strings
  | _ => trivial

theorem itemsKeysApart_of_strings (items : List Value) (distinct : itemsEvery KeysDistinct items)
    (strings : itemsEvery KeysAreStrings items) : itemsEvery KeysApart items := by
  cases items with
  | nil => trivial
  | cons v rest =>
    refine ⟨Value.keysApart_of_strings v distinct.1 strings.1, ?_⟩
    exact itemsKeysApart_of_strings rest distinct.2 strings.2

theorem entriesKeysApart_of_strings (entries : List (Value × Value))
    (distinct : entriesEvery KeysDistinct entries)
    (strings : entriesEvery KeysAreStrings entries) : entriesEvery KeysApart entries := by
  cases entries with
  | nil => trivial
  | cons e rest =>
    refine ⟨entryKeysApart_of_strings e distinct.1 strings.1, ?_⟩
    exact entriesKeysApart_of_strings rest distinct.2 strings.2

theorem entryKeysApart_of_strings (e : Value × Value) (distinct : entryEvery KeysDistinct e)
    (strings : entryEvery KeysAreStrings e) : entryEvery KeysApart e := by
  cases e with
  | mk k v => exact Value.keysApart_of_strings v distinct strings

end

/-! ### What is kept -/

mutual

/-- A tree keeps a value: every mapping has become a map with as many entries in the same order,
    every key its text, and every other value what it is as a tree. -/
def Value.KeptBy : Value → Node → Prop
  | .null, node => node = .null
  | .bool b, node => node = .scalar (.bool b)
  | .number n, node => node = .scalar (Scalar.ofYaml n)
  | .string s, node => node = .ofText s
  | .sequence items, .list nodes => itemsKept items nodes
  | .mapping entries, .map fields => entriesKept entries fields
  | .tagged _ content, node => content.KeptBy node
  | _, _ => False

def itemsKept : List Value → List Node → Prop
  | [], [] => True
  | v :: rest, node :: nodes => v.KeptBy node ∧ itemsKept rest nodes
  | _, _ => False

/-- The entries of a map keep those of a mapping, one by one. -/
def entriesKept : List (Value × Value) → List (String × Node) → Prop
  | [], [] => True
  | e :: rest, field :: fields => entryKept e field ∧ entriesKept rest fields
  | _, _ => False

/-- An entry of a map keeps one of a mapping. -/
def entryKept : Value × Value → String × Node → Prop
  | (k, v), field => field.1 = k.keyText ∧ v.KeptBy field.2

end

theorem length_eq_of_entriesKept {entries : List (Value × Value)} {fields : List (String × Node)}
    (h : entriesKept entries fields) : fields.length = entries.length := by
  induction entries generalizing fields with
  | nil =>
    cases fields with
    | nil => rfl
    | cons field fields => exact h.elim
  | cons e rest ih =>
    cases fields with
    | nil => exact h.elim
    | cons field fields => exact congrArg (· + 1) (ih h.2)

end Yaml

namespace Node

open Yaml

theorem ofYamlEntries_eq_map (entries : List (Value × Value)) :
    ofYamlEntries entries = entries.map fun e => (e.1.keyText, ofYaml e.2) := by
  induction entries with
  | nil => rfl
  | cons e rest ih =>
    rw [ofYamlEntries, ih, List.map_cons, ofYamlEntry]

theorem keys_ofYamlEntries (entries : List (Value × Value)) :
    (ofYamlEntries entries).map Prod.fst = entries.map fun e => e.1.keyText := by
  rw [ofYamlEntries_eq_map, List.map_map]
  rfl

/-- The map of a mapping keeps it exactly if the keys become different texts and the values are
    kept. -/
theorem entriesKept_ofDeclared_iff {entries : List (Value × Value)} :
    entriesKept entries (ofDeclared (ofYamlEntries entries)) ↔
      KeysApart entries ∧ entriesKept entries (ofYamlEntries entries) := by
  have hkeys : ((ofYamlEntries entries).map Prod.fst).Nodup ↔ KeysApart entries := by
    rw [keys_ofYamlEntries]
    rfl
  constructor
  · intro h
    have hdeclared : (ofYamlEntries entries).length = entries.length := by
      rw [ofYamlEntries_eq_map, List.length_map]
    have hlength := (length_eq_of_entriesKept h).trans hdeclared.symm
    have hnodup := length_ofDeclared_eq_iff.mp hlength
    rw [ofDeclared_eq_self hnodup] at h
    exact ⟨hkeys.mp hnodup, h⟩
  · rintro ⟨hapart, h⟩
    rwa [ofDeclared_eq_self (hkeys.mpr hapart)]

mutual

theorem keptBy_ofYaml_iff (v : Value) : v.KeptBy (ofYaml v) ↔ v.EveryMapping KeysApart := by
  cases v with
  | sequence items => exact itemsKept_ofYamlItems_iff items
  | mapping entries =>
    refine entriesKept_ofDeclared_iff.trans ?_
    exact and_congr_right' (entriesKept_ofYamlEntries_iff entries)
  | tagged tag content => exact keptBy_ofYaml_iff content
  | _ => exact iff_of_true rfl trivial

theorem itemsKept_ofYamlItems_iff (items : List Value) :
    itemsKept items (ofYamlItems items) ↔ itemsEvery KeysApart items := by
  cases items with
  | nil => exact Iff.rfl
  | cons v rest => exact and_congr (keptBy_ofYaml_iff v) (itemsKept_ofYamlItems_iff rest)

theorem entriesKept_ofYamlEntries_iff (entries : List (Value × Value)) :
    entriesKept entries (ofYamlEntries entries) ↔ entriesEvery KeysApart entries := by
  cases entries with
  | nil => exact Iff.rfl
  | cons e rest =>
    exact and_congr (entryKept_ofYamlEntry_iff e) (entriesKept_ofYamlEntries_iff rest)

theorem entryKept_ofYamlEntry_iff (e : Value × Value) :
    entryKept e (ofYamlEntry e) ↔ entryEvery KeysApart e := by
  cases e with
  | mk k v => exact (and_iff_right rfl).trans (keptBy_ofYaml_iff v)

end

theorem lookupEntry_ofYaml (entries : List (Value × Value)) (key : String) :
    lookupEntry key (ofDeclared (ofYamlEntries entries)) =
      (lastWhere (fun e => e.1.keyText == key) entries).map fun e => ofYaml e.2 := by
  rw [lookupEntry_ofDeclared, ofYamlEntries_eq_map, lastWhere, ← List.map_reverse, List.find?_map,
    Option.map_map]
  rfl

/-- **A tree keeps all entries of a YAML value exactly if the keys of every mapping become
    different texts.**  It does so when the keys are different strings.  In any case the map of
    a mapping has one entry for each text, in the order in which the texts are first declared,
    with what the value becomes that is declared last. -/
theorem ofYaml_keeps_iff (v : Value) :
    (v.KeptBy (ofYaml v) ↔ v.EveryMapping KeysApart) ∧
      (v.EveryMapping KeysDistinct → v.EveryMapping KeysAreStrings → v.KeptBy (ofYaml v)) ∧
      ∀ entries, v = .mapping entries → ∃ fields, ofYaml v = .map fields ∧
        fields.map Prod.fst = (entries.map fun e => e.1.keyText).eraseDups ∧
        ∀ key, lookupEntry key fields =
          (lastWhere (fun e => e.1.keyText == key) entries).map fun e => ofYaml e.2 := by
  refine ⟨keptBy_ofYaml_iff v, fun distinct strings => ?_, ?_⟩
  · exact (keptBy_ofYaml_iff v).mpr (v.keysApart_of_strings distinct strings)
  · rintro entries rfl
    refine ⟨ofDeclared (ofYamlEntries entries), rfl, ?_, lookupEntry_ofYaml entries⟩
    rw [keys_ofDeclared, keys_ofYamlEntries]

/-- Three actions of a block, the first under a number, and the last under the string that looks
    like it. -/
def lookalikes : Value :=
  .mapping [(.number (.natural 1), .string "first"), (.string "x", .string "second"),
    (.string "1", .string "third")]

/-- The first of them is lost, and the last moves into its place, before the second; under the
    strings `"1"` and `"2"` two actions are kept. -/
theorem ofYaml_keeps_iff_lookalikes :
    lookalikes.EveryMapping KeysDistinct ∧ ¬ lookalikes.KeptBy (ofYaml lookalikes) ∧
      (∃ fields, ofYaml lookalikes = .map fields ∧ fields.map Prod.fst = ["1", "x"] ∧
        lookupEntry "1" fields = some (.ofText "third")) ∧
      let strings : Value :=
        .mapping [(.string "1", .string "first"), (.string "2", .string "second")]
      strings.EveryMapping KeysDistinct ∧ strings.EveryMapping KeysAreStrings ∧
        strings.KeptBy (ofYaml strings) := by
  obtain ⟨hkept, -, hmap⟩ := ofYaml_keeps_iff lookalikes
  refine ⟨?_, ?_, ?_, ?_⟩
  · simp [lookalikes, Value.EveryMapping, entriesEvery, entryEvery, KeysDistinct, Value.same]
  · rw [hkept]
    rintro ⟨hapart, -⟩
    exact absurd hapart (by unfold KeysApart; decide)
  · obtain ⟨fields, hfields, hkeys, hlookup⟩ := hmap _ rfl
    exact ⟨fields, hfields, hkeys, hlookup "1"⟩
  · intro strings
    have distinct : strings.EveryMapping KeysDistinct := by
      simp [strings, Value.EveryMapping, entriesEvery, entryEvery, KeysDistinct, Value.same]
    have named : strings.EveryMapping KeysAreStrings := by
      simp [strings, Value.EveryMapping, entriesEvery, entryEvery, KeysAreStrings]
    exact ⟨distinct, named, (ofYaml_keeps_iff strings).2.1 distinct named⟩

end Node

end RuleEngine
