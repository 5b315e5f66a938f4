import ApiSurface.Files
import ApiSurface.Proofs.Success

/-!
# Writing and reading files

A text that is written is read back under the same path, and what lies elsewhere
is not touched.  Whether two paths lead to the same place is decided by the folder
where relative paths start, which writing never moves.  Writing makes folders and
never removes one, so that a path that led somewhere keeps leading there.  A path
with double dots may lead somewhere only after some folder has been made; any other
path is looked up directly.
-/

namespace ApiSurface

/-! ## Tables -/

namespace Entries

variable {α β : Type} [BEq α] [LawfulBEq α]

theorem lookup_insert_self (key : α) (value : β) (entries : List (α × β)) :
    (insert key value entries).lookup key = some value := by
  induction entries with
  | nil => simp [insert]
  | cons entry rest ih =>
      obtain ⟨first, content⟩ := entry
      by_cases h : first = key
      · simp [insert, h]
      · have hfirst : (key == first) = false := by simpa using Ne.symm h
        simp [insert, h, List.lookup_cons, hfirst, ih]

theorem lookup_insert_of_ne {key other : α} (h : other ≠ key) (value : β)
    (entries : List (α × β)) :
    (insert key value entries).lookup other = entries.lookup other := by
  have hother : (other == key) = false := by simpa using h
  induction entries with
  | nil => simp [insert, List.lookup_cons, hother]
  | cons entry rest ih =>
      obtain ⟨first, content⟩ := entry
      by_cases hkey : first = key
      · simp [insert, hkey, List.lookup_cons, hother]
      · simp [insert, hkey, List.lookup_cons, ih]

private theorem mem_keys_insert {key other : α} (value : β) {entries : List (α × β)}
    (h : other ∈ entries.map Prod.fst) : other ∈ (insert key value entries).map Prod.fst := by
  induction entries with
  | nil => cases h
  | cons entry rest ih =>
      by_cases hkey : entry.1 = key
      · simpa [insert, hkey] using h
      · simp only [insert, hkey, beq_iff_eq, if_false, List.map_cons, List.mem_cons] at h ⊢
        exact h.imp_right ih

theorem insert_of_lookup {key : α} {value : β} {entries : List (α × β)}
    (h : entries.lookup key = some value) : insert key value entries = entries := by
  induction entries with
  | nil => cases h
  | cons entry rest ih =>
      obtain ⟨first, content⟩ := entry
      by_cases hkey : first = key
      · subst hkey
        simp_all [insert]
      · have hother : (key == first) = false := by simpa using Ne.symm hkey
        rw [List.lookup_cons, hother] at h
        simp [insert, hkey, ih h]

end Entries

namespace Place

private theorem foldl_step_of_plain {components : List String} (h : ".." ∉ components)
    (start : Place) : components.foldl step start = start ++ components := by
  induction components generalizing start with
  | nil => simp
  | cons component rest ih =>
      simp only [List.mem_cons, not_or] at h
      rw [List.foldl_cons, ih h.2, step, if_neg (Ne.symm h.1), List.append_assoc,
        List.singleton_append]

private theorem holds_append {front back : Place} (h : back ≠ []) :
    front.holds (front ++ back) = true := by
  have := List.length_pos_iff.mpr h
  simp [holds]
  omega

theorem holds_iff {folder place : Place} :
    folder.holds place = true ↔ folder.length < place.length ∧ folder <+: place := by
  simp [holds]

theorem holds_of_isPrefix {outer middle inner : Place} (hfirst : outer <+: middle)
    (hnext : middle.holds inner = true) : outer.holds inner = true := by
  rw [holds_iff] at hnext ⊢
  exact ⟨hfirst.length_le.trans_lt hnext.1, hfirst.trans hnext.2⟩

end Place

namespace FilePath

theorem place_of_plain {path : FilePath} (h : ".." ∉ path.components) (current : Place) :
    path.place current = path.start current ++ path.components :=
  Place.foldl_step_of_plain h _

theorem join_assoc (first second third : FilePath) :
    (first.join second).join third = first.join (second.join third) := by
  unfold join
  by_cases hthird : third.anchor.isEmpty = true
  · by_cases hsecond : second.anchor.isEmpty = true <;> simp [hsecond, hthird]
  · simp [hthird]

/-- A folder whose paths stay as they are when they are taken from it once more. -/
def Absorbs (folder : FilePath) : Prop := folder.anchor ≠ "" ∨ folder.components = []

instance (folder : FilePath) : Decidable folder.Absorbs := inferInstanceAs (Decidable (_ ∨ _))

theorem Absorbs.join_join {folder : FilePath} (h : folder.Absorbs) (path : FilePath) :
    folder.join (folder.join path) = folder.join path := by
  unfold join
  by_cases hpath : path.anchor.isEmpty = true
  · rcases h with hanchor | hhere
    · simp [hpath, hanchor]
    · by_cases hanchor : folder.anchor = "" <;> simp [hpath, hanchor, hhere]
  · simp [hpath]

end FilePath

namespace Files

/-! ## Folders -/

structure Grows (files after : Files) : Prop where
  current : after.current = files.current
  folders : ∀ place ∈ files.folders, place ∈ after.folders
  places : ∀ place ∈ files.texts.map Prod.fst, place ∈ after.texts.map Prod.fst

theorem Grows.refl (files : Files) : files.Grows files :=
  ⟨rfl, fun _ h => h, fun _ h => h⟩

variable {after : Files} {start place : Place} {components : List String}

theorem Grows.trans {files middle : Files} (hfirst : files.Grows middle)
    (hnext : middle.Grows after) : files.Grows after :=
  ⟨hnext.current.trans hfirst.current,
    fun place h => hnext.folders place (hfirst.folders place h),
    fun place h => hnext.places place (hfirst.places place h)⟩

theorem isFolder_iff {files : Files} :
    files.isFolder place = true ↔ place <+: files.current ∨ place ∈ files.folders ∨
      (∃ folder ∈ files.folders, place.holds folder = true) ∨
      ∃ other ∈ files.texts.map Prod.fst, place.holds other = true := by
  simp [isFolder, or_assoc]

theorem Grows.isFolder {files : Files} (h : files.Grows after)
    (hfolder : files.isFolder place = true) : after.isFolder place = true := by
  rw [isFolder_iff] at hfolder ⊢
  rcases hfolder with hcurrent | hmade | ⟨folder, hmade, hholds⟩ | ⟨other, hother, hholds⟩
  · exact .inl (h.current ▸ hcurrent)
  · exact .inr (.inl (h.folders place hmade))
  · exact .inr (.inr (.inl ⟨folder, h.folders folder hmade, hholds⟩))
  · exact .inr (.inr (.inr ⟨other, h.places other hother, hholds⟩))

private theorem isFolder_of_isPrefix {files : Files} {outer inner : Place}
    (hwithin : outer <+: inner) (h : files.isFolder inner = true) :
    files.isFolder outer = true := by
  rw [isFolder_iff] at h ⊢
  rcases h with hcurrent | hmade | ⟨folder, hmade, hinner⟩ | ⟨other, hother, hinner⟩
  · exact .inl (hwithin.trans hcurrent)
  · rcases hwithin.length_le.eq_or_lt with hlength | hlength
    · exact .inr (.inl (hwithin.eq_of_length hlength ▸ hmade))
    · exact .inr (.inr (.inl ⟨inner, hmade, Place.holds_iff.mpr ⟨hlength, hwithin⟩⟩))
  · exact .inr (.inr (.inl ⟨folder, hmade, Place.holds_of_isPrefix hwithin hinner⟩))
  · exact .inr (.inr (.inr ⟨other, hother, Place.holds_of_isPrefix hwithin hinner⟩))

/-- A path starts at the current folder or at the root of all files. -/
theorem isFolder_start (files : Files) (path : FilePath) :
    files.isFolder (path.start files.current) = true := by
  rw [isFolder_iff]
  unfold FilePath.start
  split
  · exact .inl List.prefix_rfl
  · exact .inl List.nil_prefix

private theorem addFolder_grows (files : Files) (place : Place) :
    files.Grows (files.addFolder place) := by
  unfold addFolder
  split
  · exact .refl files
  · exact ⟨rfl, fun other h => List.mem_append_left _ h, fun other h => h⟩

private theorem isFolder_addFolder (files : Files) (place : Place) :
    (files.addFolder place).isFolder place = true := by
  unfold addFolder
  split
  · assumption
  · simp [isFolder_iff]

theorem foldl_addFolder_grows (places : List Place) (files : Files) :
    files.Grows (places.foldl addFolder files) := by
  induction places generalizing files with
  | nil => exact .refl files
  | cons place rest ih => exact (files.addFolder_grows place).trans (ih _)

theorem isFolder_foldl_addFolder {places : List Place} (h : place ∈ places) (files : Files) :
    (places.foldl addFolder files).isFolder place = true := by
  induction places generalizing files with
  | nil => cases h
  | cons first rest ih =>
      rcases List.mem_cons.mp h with rfl | h
      · exact (foldl_addFolder_grows rest _).isFolder (files.isFolder_addFolder place)
      · exact ih h _

private theorem texts_foldl_addFolder (places : List Place) (files : Files) :
    (places.foldl addFolder files).texts = files.texts := by
  induction places generalizing files with
  | nil => rfl
  | cons place rest ih =>
      rw [List.foldl_cons, ih]
      unfold addFolder
      split <;> rfl

/-- The folders that a path needs on its way. -/
def along (files : Files) (path : FilePath) : List Place :=
  foldersAlong (path.start files.current) path.components.dropLast

theorem made_grows (files : Files) (path : FilePath) (text : Text) :
    ((files.along path).foldl addFolder files).Grows (files.write path text) :=
  ⟨rfl, fun _ h => h, fun _ h => Entries.mem_keys_insert text h⟩

private theorem isFolder_write {files : Files} {path : FilePath} (h : place ∈ files.along path) (text : Text) :
    (files.write path text).isFolder place = true :=
  (made_grows files path text).isFolder (isFolder_foldl_addFolder h files)

theorem write_grows (files : Files) (path : FilePath) (text : Text) :
    files.Grows (files.write path text) :=
  (foldl_addFolder_grows _ files).trans (made_grows files path text)

@[simp] theorem current_write (files : Files) (path : FilePath) (text : Text) :
    (files.write path text).current = files.current :=
  (files.write_grows path text).current

/-! ## Following paths -/

theorem follow?_cons {files : Files} {component : String} {rest : List String} :
    files.follow? start (component :: rest) = some place ↔
      files.isFolder start = true ∧
        files.follow? (start.step component) rest = some place := by
  by_cases hfolder : files.isFolder start = true <;> simp [follow?, hfolder]

theorem Grows.follow? {files : Files} (h : files.Grows after)
    (hplace : files.follow? start components = some place) :
    after.follow? start components = some place := by
  induction components generalizing start with
  | nil => exact hplace
  | cons component rest ih =>
      rw [follow?_cons] at hplace ⊢
      exact ⟨h.isFolder hplace.1, ih hplace.2⟩

theorem Grows.locate? {files : Files} (h : files.Grows after) {path : FilePath}
    (hplace : files.locate? path = some place) : after.locate? path = some place := by
  rw [Files.locate?, h.current]
  exact h.follow? hplace

/-- A path that leads to the same place in the end did so all the time. -/
theorem Grows.locate?_between {files middle : Files} (hfirst : files.Grows middle)
    (hnext : middle.Grows after) {path : FilePath} (h : after.locate? path = files.locate? path) :
    middle.locate? path = files.locate? path := by
  cases hplace : files.locate? path with
  | some place => exact hfirst.locate? hplace
  | none =>
      cases hmiddle : middle.locate? path with
      | none => rfl
      | some place =>
          rw [hplace, hnext.locate? hmiddle] at h
          cases h

theorem follow?_eq {files : Files} (h : files.follow? start components = some place) :
    place = components.foldl Place.step start := by
  induction components generalizing start with
  | nil => exact (Option.some.inj h).symm
  | cons component rest ih => rw [List.foldl_cons, ih (follow?_cons.mp h).2]

theorem locate?_eq {files : Files} {path : FilePath} (h : files.locate? path = some place) :
    place = path.place files.current :=
  follow?_eq h

theorem follow?_of_foldersAlong {files : Files} (hstart : files.isFolder start = true)
    (h : ∀ place ∈ foldersAlong start components.dropLast, files.isFolder place = true) :
    files.follow? start components = some (components.foldl Place.step start) := by
  induction components generalizing start with
  | nil => rfl
  | cons component rest ih =>
      rw [follow?_cons, List.foldl_cons]
      refine ⟨hstart, ?_⟩
      cases rest with
      | nil => rfl
      | cons next rest =>
          simp only [List.dropLast_cons_cons, foldersAlong] at h
          by_cases hup : component = ".."
          · have hparent : files.isFolder (start.step component) = true := by
              rw [Place.step, if_pos hup]
              exact isFolder_of_isPrefix (List.dropLast_prefix start) hstart
            rw [if_pos hup] at h
            exact ih hparent h
          · simp only [hup, if_false, List.forall_mem_cons] at h
            exact ih h.1 h.2

/-! ## Reading -/

variable {files : Files} {path other : FilePath} {text : Text}

theorem lookup_write_self (files : Files) (path : FilePath) (text : Text) :
    (files.write path text).texts.lookup (path.place files.current) = some text :=
  Entries.lookup_insert_self _ _ _

theorem lookup_write_of_ne (h : place ≠ path.place files.current) :
    (files.write path text).texts.lookup place = files.texts.lookup place := by
  simp only [write, texts_foldl_addFolder]
  exact Entries.lookup_insert_of_ne h text files.texts

private theorem locate?_write_self (files : Files) (path : FilePath) (text : Text) :
    (files.write path text).locate? path = some (path.place files.current) := by
  rw [locate?, current_write]
  apply follow?_of_foldersAlong
  · exact (files.write_grows path text).isFolder (files.isFolder_start path)
  · exact fun place hplace => isFolder_write hplace text

theorem read?_write_self (files : Files) (path : FilePath) (text : Text) :
    (files.write path text).read? path = some text := by
  simp [read?, locate?_write_self, lookup_write_self]

private theorem follow?_of_plain (h : ".." ∉ components)
    (hplace : start ++ components ∈ files.texts.map Prod.fst) :
    files.follow? start components = some (start ++ components) := by
  induction components generalizing start with
  | nil => simp [follow?]
  | cons component rest ih =>
      simp only [List.mem_cons, not_or] at h
      rw [follow?_cons, Place.step, if_neg (Ne.symm h.1)]
      constructor
      · rw [isFolder_iff]
        exact .inr (.inr (.inr ⟨_, hplace, Place.holds_append (List.cons_ne_nil _ _)⟩))
      · have hrest := @ih (start ++ [component]) h.2
        rw [List.append_assoc, List.singleton_append] at hrest
        exact hrest hplace

/-- A path without double dots is looked up directly, because a text makes the
folders above it. -/
theorem read?_of_plain (h : ".." ∉ path.components) (files : Files) :
    files.read? path = files.texts.lookup (path.place files.current) := by
  cases hlocate : files.locate? path with
  | some place =>
      rw [locate?_eq hlocate] at hlocate
      simp [read?, hlocate]
  | none =>
      cases hlookup : files.texts.lookup (path.place files.current) with
      | none => simp [read?, hlocate]
      | some text =>
          rw [FilePath.place_of_plain h] at hlookup
          have hfound := follow?_of_plain h
            (List.mem_map.mpr ⟨_, Entries.mem_of_lookup hlookup, rfl⟩)
          cases hlocate.symm.trans hfound

/-- Where nothing has changed at the place of a path, the path reads the same if it
leads to that place as before, or if it has no double dots. -/
theorem read?_of_same_way (hcurrent : after.current = files.current)
    (htext : after.texts.lookup (path.place files.current) =
      files.texts.lookup (path.place files.current))
    (hway : after.locate? path = files.locate? path ∨ ".." ∉ path.components) :
    after.read? path = files.read? path := by
  rcases hway with hway | hplain
  · simp only [read?, hway]
    cases hplace : files.locate? path with
    | none => rfl
    | some place =>
        rw [locate?_eq hplace]
        exact htext
  · rw [read?_of_plain hplain, read?_of_plain hplain, hcurrent, htext]

theorem read?_write_of_ne (h : other.place files.current ≠ path.place files.current)
    (hway : (files.write path text).locate? other = files.locate? other ∨
      ".." ∉ other.components) :
    (files.write path text).read? other = files.read? other :=
  read?_of_same_way (current_write files path text) (lookup_write_of_ne h) hway

/-! ## Writing one file after the other -/

def writeAll (files : Files) (writes : List (FilePath × Text)) : Files :=
  writes.foldl (fun files entry => files.write entry.1 entry.2) files

theorem writeAll_append (files : Files) (first second : List (FilePath × Text)) :
    files.writeAll (first ++ second) = (files.writeAll first).writeAll second :=
  List.foldl_append

theorem writeAll_grows (files : Files) (writes : List (FilePath × Text)) :
    files.Grows (files.writeAll writes) := by
  induction writes generalizing files with
  | nil => exact .refl files
  | cons entry rest ih => exact (files.write_grows entry.1 entry.2).trans (ih _)

@[simp] theorem current_writeAll (files : Files) (writes : List (FilePath × Text)) :
    (files.writeAll writes).current = files.current :=
  (files.writeAll_grows writes).current

theorem lookup_writeAll_of_ne {writes : List (FilePath × Text)}
    (h : ∀ entry ∈ writes, place ≠ entry.1.place files.current) :
    (files.writeAll writes).texts.lookup place = files.texts.lookup place := by
  induction writes generalizing files with
  | nil => rfl
  | cons entry rest ih =>
      simp only [List.forall_mem_cons] at h
      have hrest := @ih (files.write entry.1 entry.2) (by rw [current_write]; exact h.2)
      exact hrest.trans (lookup_write_of_ne h.1)

theorem read?_writeAll_of_ne {writes : List (FilePath × Text)}
    (h : ∀ entry ∈ writes, other.place files.current ≠ entry.1.place files.current)
    (hway : (files.writeAll writes).locate? other = files.locate? other ∨
      ".." ∉ other.components) :
    (files.writeAll writes).read? other = files.read? other :=
  read?_of_same_way (current_writeAll files writes) (lookup_writeAll_of_ne h) hway

/-! ## Writing what is there already -/

structure InPlace (files : Files) (path : FilePath) (text : Text) : Prop where
  text : files.texts.lookup (path.place files.current) = some text
  folders : ∀ place ∈ files.along path, files.isFolder place = true

private theorem inPlace_write (files : Files) (path : FilePath) (text : Text) :
    (files.write path text).InPlace path text := by
  refine ⟨?_, fun place hplace => ?_⟩
  · rw [current_write]
    exact lookup_write_self files path text
  · rw [along, current_write] at hplace
    exact isFolder_write hplace text

theorem InPlace.writeAll (h : files.InPlace path text) {writes : List (FilePath × Text)}
    (hapart : ∀ entry ∈ writes, path.place files.current ≠ entry.1.place files.current) :
    (files.writeAll writes).InPlace path text := by
  refine ⟨?_, fun place hplace => ?_⟩
  · rw [current_writeAll, lookup_writeAll_of_ne hapart]
    exact h.text
  · rw [along, current_writeAll] at hplace
    exact (writeAll_grows files writes).isFolder (h.folders place hplace)

theorem inPlace_writeAll {writes : List (FilePath × Text)}
    (hplaces : (writes.map fun entry => entry.1.place files.current).Nodup) :
    ∀ entry ∈ writes, (files.writeAll writes).InPlace entry.1 entry.2 := by
  intro entry hentry
  obtain ⟨before, after, rfl⟩ := List.append_of_mem hentry
  have hlater : ∀ other ∈ after,
      entry.1.place files.current ≠ other.1.place files.current := by
    intro other hother
    rw [List.map_append, List.nodup_append, List.map_cons, List.nodup_cons] at hplaces
    intro hsame
    exact hplaces.2.1.1 (hsame ▸ List.mem_map_of_mem hother)
  rw [writeAll_append]
  refine (inPlace_write (files.writeAll before) entry.1 entry.2).writeAll ?_
  simpa using hlater

private theorem foldl_addFolder_of_folders {places : List Place}
    (h : ∀ place ∈ places, files.isFolder place = true) : places.foldl addFolder files = files := by
  induction places with
  | nil => rfl
  | cons place rest ih =>
      rw [List.forall_mem_cons] at h
      rw [List.foldl_cons, addFolder, if_pos h.1, ih h.2]

theorem InPlace.write_eq (h : files.InPlace path text) : files.write path text = files := by
  have hmade : (foldersAlong (path.start files.current) path.components.dropLast).foldl
      addFolder files = files := foldl_addFolder_of_folders h.folders
  rw [write, hmade, Entries.insert_of_lookup h.text]

theorem InPlace.read?_eq (h : files.InPlace path text) : files.read? path = some text := by
  have hread := read?_write_self files path text
  rwa [h.write_eq] at hread

end Files

end ApiSurface
