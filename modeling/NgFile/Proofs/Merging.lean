import NgFile.Promotion

/-!
# Merging entries into a class

Merging a list of entries touches two parts of a class only: the metadata takes in
the entries one by one, and the `exposes` entries add properties.  Both parts are
described here without the class around them.
-/

namespace NgFile

namespace Metadata

/-- Take in one entry: a selector moves to the end, and `exposes` is no metadata. -/
def mergeEntry (m : Metadata) (entry : MetadataEntry) : Metadata :=
  if entry.key = selectorKey then (m.remove selectorKey).upsert selectorKey entry.value
  else if entry.key = exposesKey then m
  else m.upsert entry.key entry.value

def merge (m : Metadata) (entries : List MetadataEntry) : Metadata :=
  entries.foldl mergeEntry m

@[simp] theorem merge_nil (m : Metadata) : m.merge [] = m := rfl

@[simp] theorem merge_cons (m : Metadata) (entry : MetadataEntry) (rest : List MetadataEntry) :
    m.merge (entry :: rest) = (m.mergeEntry entry).merge rest := rfl

theorem merge_append (m : Metadata) (first second : List MetadataEntry) :
    m.merge (first ++ second) = (m.merge first).merge second := by
  simp [merge, List.foldl_append]

/-- The properties that an entry adds: one for each name that an `exposes` entry lists. -/
def exposedProperties (entry : MetadataEntry) : List ClassProperty :=
  if entry.key = exposesKey then
    (exposedNames entry.value).map fun name => ⟨.isProtected, name, some name⟩
  else []

/-! ## The value under a key -/

def lastValue? (key : Text) (entries : List MetadataEntry) : Option Text :=
  (entries.filter fun e => e.key = key).getLast?.map MetadataEntry.value

theorem lastValue?_cons (key : Text) (entry : MetadataEntry) (rest : List MetadataEntry) :
    lastValue? key (entry :: rest) =
      (lastValue? key rest).or (if entry.key = key then some entry.value else none) := by
  by_cases hkey : entry.key = key
  · simp only [lastValue?, List.filter_cons, hkey, decide_true, if_true, List.getLast?_cons]
    cases (rest.filter fun e => e.key = key).getLast? with
    | none => rfl
    | some last => rfl
  · simp [lastValue?, hkey]

theorem get?_mergeEntry (m : Metadata) (entry : MetadataEntry) {key : Text}
    (hkey : key ≠ exposesKey) :
    (m.mergeEntry entry).get? key = if entry.key = key then some entry.value else m.get? key := by
  unfold mergeEntry
  split
  · rename_i hselector
    rw [get?_upsert, get?_remove, hselector]
    by_cases h : key = selectorKey
    · simp [h]
    · simp [h, Ne.symm h]
  · split
    · rename_i hexposes
      have hne : exposesKey ≠ key := Ne.symm hkey
      simp [hexposes, hne]
    · rw [get?_upsert]
      simp only [eq_comm]

/-- Under every key of metadata stands the last value that was written, or the old one. -/
theorem get?_merge (m : Metadata) (entries : List MetadataEntry) {key : Text}
    (hkey : key ≠ exposesKey) :
    (m.merge entries).get? key = (lastValue? key entries).or (m.get? key) := by
  induction entries generalizing m with
  | nil => rfl
  | cons entry rest ih =>
      rw [merge_cons, ih, get?_mergeEntry m entry hkey, lastValue?_cons, Option.or_assoc]
      split <;> rfl

/-! ## Where entries come from -/

theorem exists_of_get? {m : Metadata} {key value : Text} (h : m.get? key = some value) :
    ∃ e ∈ m.entries, e.key = key ∧ e.value = value := by
  obtain ⟨e, he, hvalue⟩ := Option.map_eq_some_iff.1 h
  exact ⟨e, List.mem_of_find?_eq_some he, by simpa using List.find?_some he, hvalue⟩

theorem mem_upsertIn {key value : Text} {entries : List MetadataEntry} {e : MetadataEntry}
    (h : e ∈ upsertIn key value entries) : e = ⟨key, value⟩ ∨ e ∈ entries := by
  induction entries with
  | nil => exact .inl (List.mem_singleton.1 h)
  | cons d rest ih =>
      unfold upsertIn at h
      split at h
      · exact (List.mem_cons.1 h).imp_right (List.mem_cons_of_mem d)
      · rcases List.mem_cons.1 h with rfl | h
        · exact .inr List.mem_cons_self
        · exact (ih h).imp_right (List.mem_cons_of_mem d)

theorem mem_ofEntries {entries : List MetadataEntry} {e : MetadataEntry}
    (h : e ∈ (ofEntries entries).entries) : e ∈ entries := by
  have hfold : ∀ m : Metadata,
      e ∈ (entries.foldl (fun m d => m.upsert d.key d.value) m).entries →
        e ∈ m.entries ∨ e ∈ entries := by
    clear h
    induction entries with
    | nil => exact fun m h => .inl h
    | cons d rest ih =>
        intro m h
        rcases ih (m.upsert d.key d.value) h with h | h
        · rcases mem_upsertIn h with rfl | h
          · exact .inr List.mem_cons_self
          · exact .inl h
        · exact .inr (List.mem_cons_of_mem d h)
  rcases hfold empty h with h | h
  · cases h
  · exact h

theorem mem_mergeEntry {m : Metadata} {entry e : MetadataEntry}
    (h : e ∈ (m.mergeEntry entry).entries) :
    e ∈ m.entries ∨ (e = entry ∧ entry.key ≠ exposesKey) := by
  unfold mergeEntry at h
  split at h
  · rename_i hselector
    have hne : entry.key ≠ exposesKey := by
      rw [hselector]
      decide
    rcases mem_upsertIn h with rfl | h
    · exact .inr ⟨by rw [← hselector], hne⟩
    · exact .inl (List.mem_filter.1 h).1
  · split at h
    · exact .inl h
    · rename_i hexposes
      exact (mem_upsertIn h).symm.imp_right fun heq => ⟨heq, hexposes⟩

/-- An entry of merged metadata was there before, or has been merged; none exposes names. -/
theorem mem_merge {m : Metadata} {entries : List MetadataEntry} {e : MetadataEntry}
    (h : e ∈ (m.merge entries).entries) :
    e ∈ m.entries ∨ (e ∈ entries ∧ e.key ≠ exposesKey) := by
  induction entries generalizing m with
  | nil => exact .inl h
  | cons entry rest ih =>
      rcases ih h with h | ⟨h, hkey⟩
      · rcases mem_mergeEntry h with h | ⟨rfl, hkey⟩
        · exact .inl h
        · exact .inr ⟨List.mem_cons_self, hkey⟩
      · exact .inr ⟨List.mem_cons_of_mem _ h, hkey⟩

end Metadata

/-! ## Whole classes -/

namespace TargetClass

theorem mergeEntry_eq (c : TargetClass) (entry : MetadataEntry) :
    c.mergeEntry entry =
      { c with
        metadata := c.metadata.mergeEntry entry
        properties := c.properties ++ Metadata.exposedProperties entry } := by
  unfold mergeEntry Metadata.mergeEntry Metadata.exposedProperties
  by_cases hselector : entry.key = Metadata.selectorKey
  · have hne : ¬ Metadata.selectorKey = Metadata.exposesKey := by decide
    simp [hselector, hne]
  · by_cases hexposes : entry.key = Metadata.exposesKey
    · simp only [if_neg hselector, if_pos hexposes, expose]
      rfl
    · simp [hselector, hexposes]

/-- Merging changes the metadata and appends properties; all else stays. -/
theorem mergeMetadata_eq (c : TargetClass) (entries : List MetadataEntry) :
    c.mergeMetadata entries =
      { c with
        metadata := c.metadata.merge entries
        properties := c.properties ++ entries.flatMap Metadata.exposedProperties } := by
  unfold mergeMetadata
  induction entries generalizing c with
  | nil =>
      simp
  | cons entry rest ih =>
      rw [List.foldl_cons, ih, mergeEntry_eq]
      simp [List.append_assoc]

end TargetClass

end NgFile
