/-
  RuleEngine/Proofs/Toml/Document.lean
  ====================================
  **Written documents read back.**

  A document of tables of scalars, with bare names that are all different, reads
  back to these tables.  The reader takes a line at a time, so there is a lemma for
  each kind of line: a header closes the table before it and opens an empty one, an
  entry goes to the end of the open table, an empty line changes nothing.
-/
import RuleEngine.Proofs.Entries
import RuleEngine.Proofs.Toml.Integers
import RuleEngine.Proofs.Toml.Strings

namespace RuleEngine.Toml

/-! ### Scalars -/

theorem stringText_cons (s : String) :
    ∃ quote more, (stringText s).toList = quote :: more ∧ (quote = '"' ∨ quote = '\'') := by
  unfold stringText
  dsimp only
  rw [String.toList_ofList]
  cases StringForm.of s.toList
  · exact ⟨_, _, rfl, .inl rfl⟩
  · exact ⟨_, _, rfl, .inr rfl⟩
  · exact ⟨_, _, rfl, .inl rfl⟩
  · exact ⟨_, _, rfl, .inr rfl⟩

/-- A written scalar reads back, up to the end of its line. -/
theorem readValue_text (v : Scalar) (depth bound : Nat) (rest : List Char) :
    readValue depth (bound + 1) (v.text.toList ++ '\n' :: rest) = .ok (v.value, '\n' :: rest) := by
  cases v with
  | string s =>
    have read : readString true ((stringText s).toList ++ '\n' :: rest) = .ok (s, '\n' :: rest) :=
      readString_stringText s (by simp)
    obtain ⟨quote, more, text, isQuote⟩ := stringText_cons s
    rw [text, List.cons_append] at read
    rw [Scalar.text, text, List.cons_append, readValue, if_pos (by simpa using isQuote), read]
    rfl
  | integer i =>
    have read := readNumber_text i rest
    obtain ⟨c, more, text, first⟩ := toString_cons i.toInt
    have noDouble : c ≠ '"' := ne_of_number first (by decide)
    have noSingle : c ≠ '\'' := ne_of_number first (by decide)
    have noBracket : c ≠ '[' := ne_of_number first (by decide)
    have noBrace : c ≠ '\x7b' := ne_of_number first (by decide)
    rw [text, List.cons_append] at read
    rw [Scalar.text, text, List.cons_append, readValue,
      if_neg (by simp [noDouble, noSingle]), if_neg (by simp [noBracket]),
      if_neg (by simp [noBrace]), if_pos first, read]
    rfl
  | boolean b => cases b <;> rfl

theorem Scalar.text_cons (v : Scalar) :
    ∃ c more, v.text.toList = c :: more ∧ isSpace c = false := by
  cases v with
  | string s =>
    obtain ⟨quote, more, text, isQuote⟩ := stringText_cons s
    exact ⟨quote, more, text, by rcases isQuote with rfl | rfl <;> rfl⟩
  | integer i =>
    obtain ⟨c, more, text, first⟩ := toString_cons i.toInt
    have noBlank : c ≠ ' ' := ne_of_number first (by decide)
    have noTab : c ≠ '\t' := ne_of_number first (by decide)
    exact ⟨c, more, text, by simp [isSpace, noBlank, noTab]⟩
  | boolean b => cases b <;> exact ⟨_, _, rfl, rfl⟩

/-! ### Keys -/

structure IsBare (name : String) : Prop where
  some : name.toList ≠ []
  bare : ∀ c ∈ name.toList, isBareChar c = true

theorem isBare_iff {name : String} :
    (!name.toList.isEmpty && name.toList.all isBareChar) = true ↔ IsBare name := by
  rw [Bool.and_eq_true, Bool.not_eq_true', List.isEmpty_eq_false_iff, List.all_eq_true]
  exact ⟨fun h => ⟨h.1, h.2⟩, fun h => ⟨h.some, h.bare⟩⟩

instance (name : String) : Decidable (IsBare name) := decidable_of_iff _ isBare_iff

theorem afterSpace_of_isBareChar {c : Char} (bare : isBareChar c = true) (rest : List Char) :
    afterSpace (c :: rest) = c :: rest := by
  have noSpace : c ≠ ' ' := ne_of_kind bare (by decide)
  have noTab : c ≠ '\t' := ne_of_kind bare (by decide)
  exact List.dropWhile_cons_of_neg (by simp [isSpace, noSpace, noTab])

theorem IsBare.cons {name : String} (h : IsBare name) :
    ∃ c more, name.toList = c :: more ∧ isBareChar c = true := by
  obtain ⟨c, more, text⟩ := List.exists_cons_of_ne_nil h.some
  exact ⟨c, more, text, h.bare c (text ▸ List.mem_cons_self ..)⟩

theorem readKeyPart_bare {name : String} (h : IsBare name) {rest : List Char}
    (ends : rest.takeWhile isBareChar = []) :
    readKeyPart (name.toList ++ rest) = .ok (name, rest) := by
  have key : (name.toList ++ rest).takeWhile isBareChar = name.toList := by
    rw [List.takeWhile_append_of_pos h.bare, ends, List.append_nil]
  have text : (if name.toList.isEmpty then Except.error Fault.malformed
      else .ok (String.ofList name.toList, (name.toList ++ rest).drop name.toList.length)) =
        .ok (name, rest) := by
    rw [if_neg (by simp [h.some]), String.ofList_toList, List.drop_left]
  obtain ⟨c, more, first, bare⟩ := h.cons
  have noDouble : c ≠ '"' := ne_of_kind bare (by decide)
  have noSingle : c ≠ '\'' := ne_of_kind bare (by decide)
  unfold readKeyPart
  split
  · simp_all
  · simp_all
  · rw [key]
    exact text

/-- A bare key is read as it stands, with the spaces after it. -/
theorem readKey_bare {name : String} (h : IsBare name) {rest : List Char}
    (ends : rest.takeWhile isBareChar = []) (single : (afterSpace rest).head? ≠ some '.') :
    readKey (name.toList ++ rest) = .ok (([], name), afterSpace rest) := by
  have space : afterSpace (name.toList ++ rest) = name.toList ++ rest := by
    obtain ⟨c, more, text, bare⟩ := h.cons
    rw [text]
    exact afterSpace_of_isBareChar bare _
  have parts : readKeyParts nestingLimit (name.toList ++ rest) = .ok ([name], afterSpace rest) := by
    rw [nestingLimit, readKeyParts, space, readKeyPart_bare h ends]
    simp only [bind, Except.bind]
    split
    · simp_all
    · rfl
  rw [readKey, parts]
  rfl

/-! ### Lines -/

theorem readLines_nil (bound : Nat) (d : Draft) : readLines (bound + 1) d [] = .ok d := rfl

theorem readLines_break (bound : Nat) (d : Draft) (rest : List Char) :
    readLines (bound + 1) d ('\n' :: rest) = readLines bound d rest := rfl

theorem readHeader_text {name : String} (h : IsBare name) (d : Draft) (rest : List Char) :
    readHeader d (name.toList ++ ']' :: '\n' :: rest) =
      (d.openTable [] name).map fun d => (d, rest) := by
  have key : readKey (name.toList ++ ']' :: '\n' :: rest) = .ok (([], name), ']' :: '\n' :: rest) :=
    readKey_bare h rfl (by simp [afterSpace, isSpace])
  have single : ((name.toList ++ ']' :: '\n' :: rest).head? == some '[') = false := by
    obtain ⟨c, more, text, bare⟩ := h.cons
    have noBracket : c ≠ '[' := ne_of_kind bare (by decide)
    simp [text, noBracket]
  rw [readHeader, single, key]
  rfl

theorem readLines_header {name : String} (h : IsBare name) (bound : Nat) (d : Draft)
    (rest : List Char) :
    readLines (bound + 1) d ('[' :: (name.toList ++ ']' :: '\n' :: rest)) =
      (d.openTable [] name).bind fun d => readLines bound d rest := by
  have space : afterSpace ('[' :: (name.toList ++ ']' :: '\n' :: rest)) =
      '[' :: (name.toList ++ ']' :: '\n' :: rest) := rfl
  rw [readLines, space]
  dsimp only
  rw [if_neg (by decide), if_pos (by decide), readHeader_text h]
  cases d.openTable [] name <;> rfl

theorem readEntry_text {key : String} (h : IsBare key) (v : Scalar) (d : Draft)
    (rest : List Char) :
    readEntry d (key.toList ++ ' ' :: '=' :: ' ' :: (v.text.toList ++ '\n' :: rest)) =
      (d.add [] key v.value).map fun d => (d, rest) := by
  have name : readKey (key.toList ++ ' ' :: '=' :: ' ' :: (v.text.toList ++ '\n' :: rest)) =
      .ok (([], key), '=' :: ' ' :: (v.text.toList ++ '\n' :: rest)) :=
    readKey_bare h rfl (by simp [afterSpace, isSpace])
  have space : afterSpace (' ' :: (v.text.toList ++ '\n' :: rest)) =
      v.text.toList ++ '\n' :: rest := by
    obtain ⟨c, more, text, visible⟩ := v.text_cons
    rw [text]
    simp [afterSpace, visible, show isSpace ' ' = true from rfl]
  have equals : expect '=' ('=' :: ' ' :: (v.text.toList ++ '\n' :: rest)) =
      .ok (' ' :: (v.text.toList ++ '\n' :: rest)) := rfl
  rw [readEntry, name]
  simp only [bind, Except.bind]
  rw [equals]
  dsimp only
  rw [space, readValue_text]
  rfl

/-- The line of an entry adds the entry to the table that is open. -/
theorem readLines_entry {key : String} (h : IsBare key) (v : Scalar) (bound : Nat) (d : Draft)
    (rest : List Char) :
    readLines (bound + 1) d
        (key.toList ++ ' ' :: '=' :: ' ' :: (v.text.toList ++ '\n' :: rest)) =
      (d.add [] key v.value).bind fun d => readLines bound d rest := by
  have entry := readEntry_text h v d rest
  obtain ⟨c, more, text, bare⟩ := h.cons
  have noComment : c ≠ '#' := ne_of_kind bare (by decide)
  have noBreak : c ≠ '\n' := ne_of_kind bare (by decide)
  have noReturn : c ≠ '\r' := ne_of_kind bare (by decide)
  have noBracket : c ≠ '[' := ne_of_kind bare (by decide)
  rw [text, List.cons_append] at entry
  rw [text, List.cons_append, readLines, afterSpace_of_isBareChar bare]
  dsimp only
  rw [if_neg (by simp [noComment, noBreak, noReturn]), if_neg (by simp [noBracket]), entry]
  cases d.add [] key v.value <;> rfl

/-! ### Tables -/

def Section.value (s : Section) : Value := .table (s.entries.map fun e => (e.1, e.2.value))

def documentValue (sections : List Section) : Value :=
  .table (sections.map fun s => (s.name, s.value))

def scalarItems (entries : List (String × Scalar)) : Entries :=
  entries.map fun e => (e.1, .value e.2.value)

def sectionItems (sections : List Section) : Entries :=
  sections.map fun s => (s.name, .table .declared (scalarItems s.entries))

/-- Tables with bare names that are all different, and so are the keys in each. -/
structure Tidy (sections : List Section) : Prop where
  names : ∀ s ∈ sections, IsBare s.name
  keys : ∀ s ∈ sections, ∀ e ∈ s.entries, IsBare e.1
  distinct : (sections.map Section.name).Nodup
  distinctKeys : ∀ s ∈ sections, (s.entries.map Prod.fst).Nodup

theorem finished_scalarItems (entries : List (String × Scalar)) :
    finishedEntries (scalarItems entries) = entries.map fun e => (e.1, e.2.value) := by
  induction entries with
  | nil => rfl
  | cons e entries ih => exact congrArg _ ih

theorem finished_sectionItems (sections : List Section) :
    finishedEntries (sectionItems sections) = sections.map fun s => (s.name, s.value) := by
  induction sections with
  | nil => rfl
  | cons s sections ih =>
    have entry : finishedEntry (s.name, .table .declared (scalarItems s.entries)) =
        (s.name, s.value) := by
      rw [finishedEntry, Item.finished, finished_scalarItems]
      rfl
    rw [sectionItems, List.map_cons, finishedEntries, entry]
    exact congrArg _ ih

theorem lookup_scalarItems {entries : List (String × Scalar)} {key : String}
    (fresh : key ∉ entries.map Prod.fst) : lookupEntry key (scalarItems entries) = none := by
  rw [lookupEntry_eq_none_iff, scalarItems, List.map_map]
  exact fresh

theorem lookup_sectionItems {sections : List Section} {name : String}
    (fresh : name ∉ sections.map Section.name) :
    lookupEntry name (sectionItems sections) = none := by
  rw [lookupEntry_eq_none_iff, sectionItems, List.map_map]
  exact fresh

def openDraft (closed : List Section) (name : String) (entries : List (String × Scalar)) :
    Draft where
  root := sectionItems closed
  open? := some ⟨[], name, false⟩
  entries := scalarItems entries

theorem close_openDraft {closed : List Section} {name : String}
    (fresh : name ∉ closed.map Section.name) (entries : List (String × Scalar)) :
    (openDraft closed name entries).close = .ok (sectionItems (closed ++ [⟨name, entries⟩])) := by
  rw [sectionItems, List.map_append]
  simp only [Draft.close, openDraft, descend, lookup_sectionItems fresh]
  rfl

theorem openTable_of_close {d : Draft} {closed : List Section} {name : String}
    (closes : d.close = .ok (sectionItems closed)) (fresh : name ∉ closed.map Section.name) :
    d.openTable [] name = .ok (openDraft closed name []) := by
  simp only [Draft.openTable, descend, closes, bind, Except.bind, lookup_sectionItems fresh]
  rfl

theorem add_openDraft {closed : List Section} {name key : String}
    {entries : List (String × Scalar)} (fresh : key ∉ entries.map Prod.fst) (v : Scalar) :
    (openDraft closed name entries).add [] key v.value =
      .ok (openDraft closed name (entries ++ [(key, v)])) := by
  have added : addValue [] key v.value (scalarItems entries) =
      .ok (scalarItems (entries ++ [(key, v)])) := by
    rw [addValue]
    simp only [descend, lookup_scalarItems fresh]
    rw [scalarItems, scalarItems, List.map_append]
    rfl
  rw [Draft.add, openDraft, added]
  rfl

/-! ### Documents -/

def entryLine (e : String × Scalar) : List Char :=
  e.1.toList ++ ' ' :: '=' :: ' ' :: (e.2.text.toList ++ ['\n'])

-- By induction on the entries that are left: the open table has those before, and every line
-- takes one from the bound.
/-- The lines of entries add them all to the table that is open. -/
theorem readLines_entries {entries : List (String × Scalar)} (bare : ∀ e ∈ entries, IsBare e.1)
    {closed : List Section} {name : String} {before : List (String × Scalar)}
    (distinct : ((before ++ entries).map Prod.fst).Nodup) (bound : Nat) (rest : List Char) :
    readLines (bound + entries.length) (openDraft closed name before)
        (entries.flatMap entryLine ++ rest) =
      readLines bound (openDraft closed name (before ++ entries)) rest := by
  induction entries generalizing before with
  | nil => rw [List.append_nil]; rfl
  | cons e entries ih =>
    obtain ⟨first, others⟩ := List.forall_mem_cons.1 bare
    have fresh : e.1 ∉ before.map Prod.fst := by
      intro twice
      rw [List.map_append, List.nodup_append] at distinct
      exact distinct.2.2 _ twice _ (List.mem_cons_self ..) rfl
    have split : before ++ e :: entries = (before ++ [(e.1, e.2)]) ++ entries := by
      rw [List.append_assoc]
      rfl
    have line := readLines_entry first e.2 (bound + entries.length)
      (openDraft closed name before) (entries.flatMap entryLine ++ rest)
    rw [add_openDraft fresh] at line
    rw [split] at distinct ⊢
    rw [List.length_cons, ← Nat.add_assoc, List.flatMap_cons, ← ih others distinct]
    simpa only [entryLine, List.append_assoc, List.cons_append, List.nil_append, Except.bind]
      using line

theorem Section.text_toList (s : Section) :
    s.text.toList = '[' :: (s.name.toList ++ ']' :: '\n' :: s.entries.flatMap entryLine) := by
  have lines : (String.join (s.entries.map fun e => e.1 ++ " = " ++ e.2.text ++ "\n")).toList =
      s.entries.flatMap entryLine := by
    rw [String.toList_join, List.flatMap_map]
    exact List.flatMap_congr fun e _ => by simp [entryLine]
  rw [Section.text]
  simp only [String.toList_append, lines]
  simp

theorem documentText_cons (s t : Section) (sections : List Section) :
    (documentText (s :: t :: sections)).toList =
      s.text.toList ++ '\n' :: (documentText (t :: sections)).toList := by
  simp only [documentText, List.map_cons, String.intercalate_cons_cons, String.toList_append]
  simp

theorem documentText_singleton (s : Section) : documentText [s] = s.text := by
  simp [documentText]

/-- A bound for the number of lines of some tables. -/
def lineCount (sections : List Section) : Nat :=
  sections.foldr (fun s count => s.entries.length + 2 + count) 0

theorem length_entryLines (entries : List (String × Scalar)) :
    entries.length ≤ (entries.flatMap entryLine).length := by
  induction entries with
  | nil => exact Nat.zero_le _
  | cons e entries ih =>
    rw [List.flatMap_cons, List.length_append, List.length_cons, entryLine, List.length_append,
      List.length_cons]
    omega

theorem length_section (s : Section) : s.entries.length + 2 ≤ s.text.toList.length := by
  have entries := length_entryLines s.entries
  rw [s.text_toList]
  simp only [List.length_cons, List.length_append]
  omega

theorem lineCount_le (sections : List Section) :
    lineCount sections ≤ (documentText sections).toList.length := by
  induction sections with
  | nil => exact Nat.zero_le _
  | cons s sections ih =>
    have first := length_section s
    have count : lineCount (s :: sections) = s.entries.length + 2 + lineCount sections := rfl
    cases sections with
    | nil =>
      rw [documentText_singleton]
      exact first
    | cons t sections =>
      rw [documentText_cons, List.length_append, List.length_cons]
      omega

/-- A section closes the table that is open, and opens its own with its entries. -/
theorem readLines_section {s : Section} (name : IsBare s.name)
    (keys : ∀ e ∈ s.entries, IsBare e.1) (distinct : (s.entries.map Prod.fst).Nodup)
    {closed : List Section} (fresh : s.name ∉ closed.map Section.name) {d : Draft}
    (closes : d.close = .ok (sectionItems closed)) (bound : Nat) (rest : List Char) :
    readLines (bound + s.entries.length + 1) d (s.text.toList ++ rest) =
      readLines bound (openDraft closed s.name s.entries) rest := by
  have header := readLines_header name (bound + s.entries.length) d
    (s.entries.flatMap entryLine ++ rest)
  have lines : readLines (bound + s.entries.length) (openDraft closed s.name [])
      (s.entries.flatMap entryLine ++ rest) =
        readLines bound (openDraft closed s.name ([] ++ s.entries)) rest :=
    readLines_entries keys (by simpa using distinct) bound rest
  rw [openTable_of_close closes fresh] at header
  rw [s.text_toList, ← List.nil_append s.entries, ← lines]
  simpa only [List.append_assoc, List.cons_append, List.nil_append, Except.bind] using header

-- By induction on the tables that are left: the draft closes to those that were read, so the
-- header of the next one finds no table of its name.
theorem readLines_sections {sections closed : List Section} (tidy : Tidy (closed ++ sections))
    {d : Draft} (closes : d.close = .ok (sectionItems closed)) (bound : Nat) :
    ∃ last, readLines (bound + lineCount sections + 1) d (documentText sections).toList = .ok last ∧
      last.close = .ok (sectionItems (closed ++ sections)) := by
  induction sections generalizing closed d with
  | nil => exact ⟨d, rfl, by rw [List.append_nil, closes]⟩
  | cons s sections ih =>
    have mem : s ∈ closed ++ s :: sections := List.mem_append_right _ (List.mem_cons_self ..)
    have fresh : s.name ∉ closed.map Section.name := by
      intro twice
      have distinct := tidy.distinct
      rw [List.map_append, List.nodup_append] at distinct
      exact distinct.2.2 _ twice _ (List.mem_cons_self ..) rfl
    have table := readLines_section (tidy.names s mem) (tidy.keys s mem) (tidy.distinctKeys s mem)
      fresh closes
    have after : (openDraft closed s.name s.entries).close =
        .ok (sectionItems (closed ++ [s])) := close_openDraft fresh s.entries
    have split : closed ++ s :: sections = (closed ++ [s]) ++ sections := by
      rw [List.append_assoc]
      rfl
    have count : lineCount (s :: sections) = s.entries.length + 2 + lineCount sections := rfl
    cases sections with
    | nil =>
      have lines : bound + lineCount [s] + 1 = (bound + 1 + 1) + s.entries.length + 1 := by
        rw [count, show lineCount [] = 0 from rfl]
        omega
      refine ⟨_, ?_, after⟩
      rw [documentText_singleton, ← List.append_nil s.text.toList, lines, table, readLines_nil]
    | cons t sections =>
      have lines : bound + lineCount (s :: t :: sections) + 1 =
          (bound + lineCount (t :: sections) + 1 + 1) + s.entries.length + 1 := by omega
      rw [split] at tidy ⊢
      obtain ⟨last, read, closes⟩ := ih tidy after
      refine ⟨last, ?_, closes⟩
      rw [documentText_cons, lines, table, readLines_break, read]

theorem documentText_start (sections : List Section) :
    (documentText sections).toList.head? ≠ some '\uFEFF' := by
  cases sections with
  | nil => decide
  | cons s sections =>
    cases sections with
    | nil => rw [documentText_singleton, s.text_toList]; simp
    | cons t sections => rw [documentText_cons, s.text_toList]; simp

/-- A written document reads back. -/
theorem read_documentText {sections : List Section} (tidy : Tidy sections) :
    Value.read (documentText sections) = .ok (documentValue sections) := by
  have start := documentText_start sections
  obtain ⟨bound, enough⟩ := Nat.exists_eq_add_of_le' (lineCount_le sections)
  have closes : Draft.close {} = .ok (sectionItems []) := rfl
  have whole : Tidy ([] ++ sections) := tidy
  obtain ⟨last, read, closed⟩ := readLines_sections whole closes bound
  have value : last.finish = .ok (documentValue sections) := by
    rw [Draft.finish, closed, List.nil_append]
    change Except.ok (Value.table (finishedEntries (sectionItems sections))) = _
    rw [finished_sectionItems]
    rfl
  rw [← enough] at read
  unfold Value.read
  split
  · simp_all
  · dsimp only
    rw [read]
    exact value

end RuleEngine.Toml
