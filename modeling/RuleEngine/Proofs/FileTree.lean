/-
  RuleEngine/Proofs/FileTree.lean
  ===============================
  **Writing files.**

  A path is followed through directories, so what is written is found again under
  the same path as long as no directory is lost.  Both ways to change a tree keep
  all of them: making directories adds entries where none was, and a file is written
  only in a place that is no directory.

  However a tree is written, it stays sound (`FileTree.Sound`): every place is taken once,
  and no name inside a directory has a separator.
-/
import Mathlib.Data.List.Nodup
import Mathlib.Data.String.Basic
import RuleEngine.FileTree

namespace RuleEngine

/-! ### Entries -/

theorem FileEntry.followed?_overwritten? (content : FileContent) (now : Nat) (entry : FileEntry) :
    ∀ written, entry.overwritten? content now = some written →
      written.followed? = some (.file content now) ∧ entry.followed? ≠ some .directory := by
  fun_induction FileEntry.overwritten? content now entry with
  | case1 =>
    rintro _ ⟨⟩
    exact ⟨rfl, by simp [FileEntry.followed?]⟩
  | case2 => rintro _ ⟨⟩
  | case3 target ih =>
    intro written h
    obtain ⟨inner, overwritten, rfl⟩ := Option.map_eq_some_iff.1 h
    exact ih inner overwritten
  | case4 =>
    rintro _ ⟨⟩
    exact ⟨rfl, by simp [FileEntry.followed?]⟩

theorem FileEntry.overwritten?_isSome {entry : FileEntry} (file : entry.followed? ≠ some .directory)
    (content : FileContent) (now : Nat) : (entry.overwritten? content now).isSome = true := by
  fun_induction FileEntry.overwritten? content now entry with
  | case1 => rfl
  | case2 => exact absurd rfl file
  | case3 target ih => rw [Option.isSome_map]; exact ih file
  | case4 => rfl

namespace FileTree

variable {t t' : FileTree}

/-! ### Directories that are kept -/

/-- A tree has the directories of another, and paths start in the same place. -/
structure Grown (t t' : FileTree) : Prop where
  start : t'.start = t.start
  directories : ∀ place, t.isDirectory place = true → t'.isDirectory place = true

/-- A walk that succeeds does so in every tree that is grown from the tree. -/
theorem Grown.walk? (h : Grown t t') {here place : List String} {parts : List String}
    (found : t.walk? here parts = some place) : t'.walk? here parts = some place := by
  induction parts generalizing here with
  | nil => exact found
  | cons part parts ih =>
    rw [FileTree.walk?] at found ⊢
    split_ifs at found with missing
    have directory : t.isDirectory here = true := by simpa using missing
    rw [if_neg (by simp [h.directories here directory])]
    exact ih found

/-- A path leads to the same place when directories are added. -/
theorem Grown.locate? (h : Grown t t') {path : String} {place : List String}
    (found : t.locate? path = some place) : t'.locate? path = some place := by
  unfold FileTree.locate? origin at *
  rw [h.start]
  split_ifs at found ⊢ with empty absolute
  · exact h.walk? found
  · exact h.walk? found

theorem walk?_eq_walk {here place : List String} {parts : List String}
    (found : t.walk? here parts = some place) : place = walk here parts := by
  induction parts generalizing here with
  | nil => exact (Option.some.inj found).symm
  | cons part parts ih =>
    rw [FileTree.walk?] at found
    split_ifs at found
    exact ih found

theorem locate?_eq_place {path : String} {place : List String}
    (found : t.locate? path = some place) : place = t.place path := by
  unfold FileTree.locate? at found
  split_ifs at found
  exact walk?_eq_walk found

theorem isDirectory_of_at? {place : List String} {entry : FileEntry}
    (there : t.at? place = some entry) :
    t.isDirectory place = true ↔ entry.followed? = some .directory := by
  rw [isDirectory, there]
  dsimp only
  split <;> simp_all

/-! ### Writing one file -/

theorem at?_write (t : FileTree) (path : String) (entry : FileEntry) (place : List String) :
    (t.write path entry).at? place = if place = t.place path then some entry else t.at? place := by
  unfold FileTree.write at?
  dsimp only
  rw [List.find?_append, List.find?_filter]
  split_ifs with same
  · subst same
    have none : t.entries.find? (fun e => decide ((e.1 != t.place path) = true ∧
        (e.1 == t.place path) = true)) = none := by
      simp
    rw [none]
    simp
  · have kept : (fun e : List String × FileEntry => decide ((e.1 != t.place path) = true ∧
        (e.1 == place) = true)) = fun e => e.1 == place := by
      funext e
      by_cases here : e.1 = place <;> simp [here, same]
    have last : (t.place path == place) = false := by simpa using Ne.symm same
    rw [kept, List.find?_singleton, last]
    simp

/-- A file that is written in a place that is no directory takes none away. -/
theorem grown_write (path : String) (entry : FileEntry)
    (file : t.isDirectory (t.place path) = false) : Grown t (t.write path entry) where
  start := rfl
  directories := by
    intro place directory
    have other : place ≠ t.place path := by
      rintro rfl
      rw [file] at directory
      cases directory
    have same : (t.write path entry).at? place = t.at? place := by
      rw [at?_write, if_neg other]
    unfold isDirectory at *
    rw [same]
    cases there : t.at? place with
    | some entry => simpa only [there] using directory
    | none =>
      -- What is below the place stays, or is written anew in its own place.
      simp only [there, Bool.or_eq_true, List.any_eq_true] at directory ⊢
      rcases directory with start | ⟨e, mem, below⟩
      · exact .inl start
      · right
        by_cases here : e.1 = t.place path
        · exact ⟨_, List.mem_append_right _ (List.mem_singleton_self _), here ▸ below⟩
        · exact ⟨e, List.mem_append_left _ (List.mem_filter.2 ⟨mem, by simpa using here⟩), below⟩

theorem isThere_of_read? {path : String} {content : FileContent}
    (read : t.read? path = some content) : t.isThere path = true := by
  obtain ⟨entry, there, holds⟩ := Option.bind_eq_some_iff.1 read
  obtain ⟨place, found, here⟩ := Option.bind_eq_some_iff.1 there
  have reached : entry.followed?.isSome = true := by
    unfold FileEntry.content? at holds
    split at holds
    · rename_i file
      rw [file]
      rfl
    · cases holds
  rw [isThere, found]
  simp [here, reached]

/-- A file is written where the path leads, unless a directory is there. -/
theorem overwrite?_isSome_iff {path : String} (content : FileContent) (now : Nat) :
    (t.overwrite? path content now).isSome = true ↔
      ∃ place, t.locate? path = some place ∧ t.isDirectory place = false := by
  unfold overwrite?
  cases found : t.locate? path with
  | none => simp
  | some place =>
    cases there : t.at? place with
    | none => cases t.isDirectory place <;> simp [there]
    | some entry =>
      have directory := isDirectory_of_at? there
      simp only [there, Option.isSome_map, Option.some.injEq, exists_eq_left']
      constructor
      · intro written
        obtain ⟨file, overwritten⟩ := Option.isSome_iff_exists.1 written
        have other := (entry.followed?_overwritten? content now file overwritten).2
        simpa [← directory] using other
      · intro file
        exact FileEntry.overwritten?_isSome (by simp [← directory, file]) content now

/-- What is written is read again under the same path. -/
theorem read?_of_overwrite? {path : String} {content : FileContent} {now : Nat}
    (written : t.overwrite? path content now = some t') : t'.read? path = some content := by
  have some := (overwrite?_isSome_iff content now).1 (Option.isSome_of_eq_some written)
  obtain ⟨place, found, file⟩ := some
  obtain rfl := locate?_eq_place found
  -- Whatever is written there, reading follows it to the file with the content.
  have wrote : ∃ entry, t' = t.write path entry ∧
      entry.followed? = Option.some (.file content now) := by
    unfold overwrite? at written
    rw [found] at written
    cases there : t.at? (t.place path) with
    | none =>
      simp only [there, file, Bool.false_eq_true, if_false, Option.some.injEq] at written
      exact ⟨_, written.symm, rfl⟩
    | some entry =>
      simp only [there] at written
      obtain ⟨inner, overwritten, rfl⟩ := Option.map_eq_some_iff.1 written
      exact ⟨inner, rfl, (entry.followed?_overwritten? content now inner overwritten).1⟩
  obtain ⟨entry, rfl, holds⟩ := wrote
  have again := (grown_write path entry file).locate? found
  rw [read?, again, Option.bind_some, at?_write, if_pos rfl, Option.bind_some,
    FileEntry.content?, holds]

/-! ### Making directories -/

/-- A tree has the entries of another as they are. -/
structure Kept (t t' : FileTree) : Prop extends Grown t t' where
  entries : ∀ place entry, t.at? place = some entry → t'.at? place = some entry

theorem Kept.refl (t : FileTree) : Kept t t := ⟨⟨rfl, fun _ => id⟩, fun _ _ => id⟩

theorem Kept.trans {t'' : FileTree} (h : Kept t t') (h' : Kept t' t'') : Kept t t'' where
  start := h'.start.trans h.start
  directories := fun place directory => h'.directories place (h.directories place directory)
  entries := fun place entry there => h'.entries place entry (h.entries place entry there)

/-- What could be read still reads the same. -/
theorem Kept.read? (h : Kept t t') {path : String} {content : FileContent}
    (read : t.read? path = some content) : t'.read? path = some content := by
  obtain ⟨entry, there, holds⟩ := Option.bind_eq_some_iff.1 read
  obtain ⟨place, found, here⟩ := Option.bind_eq_some_iff.1 there
  rw [FileTree.read?, h.toGrown.locate? found, Option.bind_some, h.entries place entry here,
    Option.bind_some, holds]

theorem kept_makeDirectory {place : List String} (free : t.at? place = none) :
    Kept t { t with entries := t.entries ++ [(place, .directory)] } := by
  have at?_eq (other : List String) :
      at? { t with entries := t.entries ++ [(place, .directory)] } other =
        if other = place then some .directory else t.at? other := by
    unfold at? at *
    rw [List.find?_append, List.find?_singleton]
    by_cases same : other = place
    · subst same
      rw [Option.map_eq_none_iff.1 free]
      simp
    · have last : (place == other) = false := by simpa using Ne.symm same
      simp [same, last]
  refine ⟨⟨rfl, ?_⟩, ?_⟩
  · intro other directory
    by_cases same : other = place
    · rw [isDirectory, at?_eq, if_pos same]
      rfl
    · unfold isDirectory at *
      rw [at?_eq, if_neg same]
      cases there : t.at? other with
      | some entry => simpa only [there] using directory
      | none =>
        simp only [there, Bool.or_eq_true, List.any_append] at directory ⊢
        exact directory.imp_right .inl
  · intro other entry there
    have different : other ≠ place := by
      rintro rfl
      rw [free] at there
      cases there
    rw [at?_eq, if_neg different, there]

/-- Making directories keeps what is there, also where it fails. -/
theorem kept_makeDirectories (here : List String) (parts : List String) :
    Kept t (t.makeDirectories here parts).2 := by
  induction parts generalizing t here with
  | nil => exact .refl t
  | cons part parts ih =>
    rw [makeDirectories]
    dsimp only
    split_ifs with directory blocked
    · exact ih _
    · exact .refl t
    · exact (kept_makeDirectory (by simpa using blocked)).trans (ih _)

theorem kept_makeParents (t : FileTree) (path : String) : Kept t (t.makeParents path).2 :=
  kept_makeDirectories _ _

/-- A path that turns back leaves the directory that it passed. -/
example : (makeParents {} "a/../c.toml").2.isDirectory ["a"] = true := by decide +kernel

/-- Where a path is followed already, there is nothing to make. -/
theorem makeDirectories_of_walk? {here place : List String} {parts : List String}
    (found : t.walk? here parts = some place) :
    t.makeDirectories here (parts.filter fun part => part ≠ "" ∧ part ≠ ".").dropLast =
      (true, t) := by
  induction parts generalizing here with
  | nil => rfl
  | cons part parts ih =>
    rw [walk?] at found
    split_ifs at found with missing
    have more := ih found
    by_cases named : part ≠ "" ∧ part ≠ "."
    · rw [List.filter_cons_of_pos (by simpa using named)]
      cases parts with
      | nil => rfl
      | cons next parts =>
        -- The path goes on, so it is a directory that this part leads to.
        rw [walk?] at found
        split_ifs at found with blocked
        have directory : t.isDirectory (walk here [part]) = true := by simpa using blocked
        cases kept : (next :: parts).filter fun part => part ≠ "" ∧ part ≠ "." with
        | nil => rfl
        | cons first others =>
          rw [kept] at more
          rw [List.dropLast_cons_of_ne_nil (by simp), makeDirectories]
          dsimp only
          rw [if_pos directory, more]
    · rw [List.filter_cons_of_neg (by simpa using named)]
      have stays : walk here [part] = here := by
        have skip : part = "" ∨ part = "." := by tauto
        simp [walk, skip]
      rwa [stays] at more

/-- A file can be written where a path leads, with the directories around it made. -/
def Accepts (t : FileTree) (path : String) : Prop :=
  (t.makeParents path).1 = true ∧
    ∃ place, (t.makeParents path).2.locate? path = some place ∧
      (t.makeParents path).2.isDirectory place = false

/-- A file that can be read can be written. -/
theorem accepts_of_read? {path : String} {content : FileContent}
    (read : t.read? path = some content) : t.Accepts path := by
  obtain ⟨entry, there, holds⟩ := Option.bind_eq_some_iff.1 read
  obtain ⟨place, found, here⟩ := Option.bind_eq_some_iff.1 there
  have made : t.makeParents path = (true, t) := by
    unfold FileTree.locate? at found
    split_ifs at found
    exact makeDirectories_of_walk? found
  have file : t.isDirectory place = false := by
    rw [← Bool.not_eq_true, isDirectory_of_at? here]
    intro directory
    rw [FileEntry.content?, directory] at holds
    cases holds
  rw [Accepts, made]
  exact ⟨rfl, place, found, file⟩

end FileTree

/-! ### Names of entries -/

def IsPart (part : String) : Prop := '/' ∉ part.toList

theorem not_mem_of_mem_splitOn {α : Type} [BEq α] [LawfulBEq α] {a : α} {l part : List α}
    (h : part ∈ l.splitOn a) : a ∉ part := by
  induction l generalizing part with
  | nil =>
    rw [List.splitOn_nil, List.mem_singleton] at h
    rw [h]
    exact List.not_mem_nil
  | cons x l ih =>
    rw [List.splitOn_cons_eq_if_modifyHead] at h
    by_cases hx : x == a
    · rw [if_pos hx, List.mem_cons] at h
      rcases h with rfl | h
      · exact List.not_mem_nil
      · exact ih h
    · rw [if_neg hx] at h
      -- the first part goes on, the others stay
      cases hparts : l.splitOn a with
      | nil => exact absurd hparts (List.splitOn_ne_nil a l)
      | cons first others =>
        rw [hparts, List.modifyHead_cons, List.mem_cons] at h
        rcases h with rfl | h
        · have hfirst : a ∉ first := ih (hparts ▸ List.mem_cons_self)
          have hne : a ≠ x := fun heq => hx (beq_iff_eq.mpr heq.symm)
          exact List.not_mem_cons_of_ne_of_not_mem hne hfirst
        · exact ih (hparts ▸ List.mem_cons_of_mem _ h)

theorem isPart_of_mem_splitPath {path part : String} (h : part ∈ splitPath path) : IsPart part := by
  obtain ⟨chars, hchars, rfl⟩ := List.mem_map.mp h
  rw [IsPart, String.toList_ofList]
  exact not_mem_of_mem_splitOn hchars

theorem IsPart.not_isAbsolute {part : String} (h : IsPart part) : isAbsolute part = false := by
  rw [isAbsolute, String.startsWith_string_eq_false_iff]
  intro hpre
  exact h (hpre.subset (List.mem_singleton_self _))

/-- Walking leads along parts that were there already or are walked along. -/
theorem isPart_of_mem_walk {here parts : List String} (hhere : ∀ part ∈ here, IsPart part)
    (hparts : ∀ part ∈ parts, IsPart part) : ∀ part ∈ walk here parts, IsPart part := by
  induction parts generalizing here with
  | nil => exact hhere
  | cons part rest ih =>
    obtain ⟨hpart, hrest⟩ := List.forall_mem_cons.mp hparts
    refine ih ?_ hrest
    dsimp only
    split_ifs
    · exact hhere
    · exact fun other hother => hhere other (List.dropLast_subset _ hother)
    · intro other hother
      rcases List.mem_append.mp hother with hother | hother
      · exact hhere other hother
      · rw [List.mem_singleton.mp hother]
        exact hpart

namespace FileTree

/-- A tree as a file system keeps it: a place is taken once, and named by parts of paths. -/
structure Sound (t : FileTree) : Prop where
  distinct : (t.entries.map Prod.fst).Nodup
  parts : ∀ e ∈ t.entries, ∀ part ∈ e.1, IsPart part
  start : ∀ part ∈ t.start, IsPart part

theorem sound_empty : Sound {} := ⟨List.nodup_nil, nofun, nofun⟩

section Sound

variable {t : FileTree}

theorem Sound.origin (h : t.Sound) (path : String) : ∀ part ∈ t.origin path, IsPart part := by
  unfold FileTree.origin
  split_ifs
  · exact nofun
  · exact h.start

theorem Sound.place (h : t.Sound) (path : String) : ∀ part ∈ t.place path, IsPart part :=
  isPart_of_mem_walk (h.origin path) fun _ hpart => isPart_of_mem_splitPath hpart

theorem Sound.sublist (h : t.Sound) {entries : List (List String × FileEntry)}
    (hsub : entries.Sublist t.entries) : Sound { t with entries } where
  distinct := h.distinct.sublist (hsub.map Prod.fst)
  parts := fun e he => h.parts e (hsub.subset he)
  start := h.start

/-- A new entry at a free place leaves the tree as a file system keeps it. -/
theorem Sound.add (h : t.Sound) {place : List String} (hplace : ∀ part ∈ place, IsPart part)
    (hfree : place ∉ t.entries.map Prod.fst) (entry : FileEntry) :
    Sound { t with entries := t.entries ++ [(place, entry)] } where
  distinct := by
    rw [List.map_append, List.map_singleton]
    exact h.distinct.append (List.nodup_singleton _) (List.disjoint_singleton.mpr hfree)
  parts := by
    intro e he
    rcases List.mem_append.mp he with he | he
    · exact h.parts e he
    · rw [List.mem_singleton.mp he]
      exact hplace
  start := h.start

theorem Sound.delete (h : t.Sound) (path : String) : (t.delete path).Sound :=
  h.sublist List.filter_sublist

/-- Writing an entry keeps a sound tree sound. -/
theorem Sound.write (h : t.Sound) (path : String) (entry : FileEntry) :
    (t.write path entry).Sound := by
  refine (h.delete path).add (h.place path) ?_ entry
  simp [FileTree.delete]

theorem Sound.makeDirectories (h : t.Sound) {here parts : List String}
    (hhere : ∀ part ∈ here, IsPart part) (hparts : ∀ part ∈ parts, IsPart part) :
    (t.makeDirectories here parts).2.Sound := by
  induction parts generalizing t here with
  | nil => exact h
  | cons part rest ih =>
    obtain ⟨hpart, hrest⟩ := List.forall_mem_cons.mp hparts
    have hnext : ∀ other ∈ walk here [part], IsPart other :=
      isPart_of_mem_walk hhere fun other hother => List.mem_singleton.mp hother ▸ hpart
    rw [FileTree.makeDirectories]
    dsimp only
    split_ifs with directory blocked
    · exact ih h hnext hrest
    · exact h
    · refine ih (h.add hnext ?_ .directory) hnext hrest
      intro htaken
      obtain ⟨e, he, hplace⟩ := List.mem_map.mp htaken
      apply blocked
      rw [at?, Option.isSome_map, List.find?_isSome]
      exact ⟨e, he, beq_iff_eq.mpr hplace⟩

theorem Sound.makeParents (h : t.Sound) (path : String) : (t.makeParents path).2.Sound := by
  refine h.makeDirectories (h.origin path) fun part hpart => ?_
  exact isPart_of_mem_splitPath (List.mem_of_mem_filter (List.dropLast_subset _ hpart))

/-- Writing a file leaves the tree as a file system keeps it. -/
theorem Sound.overwrite? (h : t.Sound) {path : String} {content : FileContent} {now : Nat}
    {t' : FileTree} (hwritten : t.overwrite? path content now = some t') : t'.Sound := by
  unfold FileTree.overwrite? at hwritten
  split at hwritten
  · cases hwritten
  · split at hwritten
    · obtain ⟨entry, -, rfl⟩ := Option.map_eq_some_iff.mp hwritten
      exact h.write path entry
    · split_ifs at hwritten
      cases hwritten
      exact h.write path _

end Sound

end FileTree

end RuleEngine
