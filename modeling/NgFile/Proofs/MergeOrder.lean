import NgFile.Proofs.Edits

/-!
# What merging leaves

Merging a list of entries overwrites keys in place, appends new ones, and takes the selector
out to put it behind the others.  After all of them, each key that was written has its last
value, and the keys that came in stand in the order of the entries: each where it first occurs,
only the selector where it occurs last.
-/

namespace NgFile

namespace Metadata

/-- The entries that become metadata: all but those that list names to expose. -/
def written (entries : List MetadataEntry) : List MetadataEntry :=
  entries.filter fun e => e.key ≠ exposesKey

def keysOf (entries : List MetadataEntry) : List Text :=
  entries.map MetadataEntry.key

@[simp] theorem keysOf_cons (entry : MetadataEntry) (rest : List MetadataEntry) :
    keysOf (entry :: rest) = entry.key :: keysOf rest := rfl

@[simp] theorem keysOf_append (first second : List MetadataEntry) :
    keysOf (first ++ second) = keysOf first ++ keysOf second :=
  List.map_append

theorem exposesKey_not_mem_written (entries : List MetadataEntry) :
    exposesKey ∉ keysOf (written entries) := by
  simp [keysOf, written]

/-- Entries that list names to expose leave metadata as it is. -/
theorem merge_written (m : Metadata) (entries : List MetadataEntry) :
    m.merge (written entries) = m.merge entries := by
  have hne : exposesKey ≠ selectorKey := by decide
  induction entries generalizing m with
  | nil => rfl
  | cons entry rest ih =>
      by_cases hexposes : entry.key = exposesKey
      · have hstep : m.mergeEntry entry = m := by
          simp [mergeEntry, hexposes, hne]
        have hdropped : written (entry :: rest) = written rest := by
          simp [written, hexposes]
        rw [hdropped, merge_cons, hstep, ih]
      · have hkept : written (entry :: rest) = entry :: written rest := by
          simp [written, hexposes]
        rw [hkept, merge_cons, merge_cons, ih]

theorem get?_mergeEntry_exposesKey (m : Metadata) (entry : MetadataEntry) :
    (m.mergeEntry entry).get? exposesKey = m.get? exposesKey := by
  have hne : exposesKey ≠ selectorKey := by decide
  unfold mergeEntry
  split
  · rw [get?_upsert, if_neg hne, get?_remove, if_neg hne]
  · split
    · rfl
    · rename_i hexposes
      rw [get?_upsert, if_neg (Ne.symm hexposes)]

theorem get?_merge_exposesKey (m : Metadata) (entries : List MetadataEntry) :
    (m.merge entries).get? exposesKey = m.get? exposesKey := by
  induction entries generalizing m with
  | nil => rfl
  | cons entry rest ih => rw [merge_cons, ih, get?_mergeEntry_exposesKey]

/-- Under every key stands its last value among the entries that become metadata, or the old. -/
theorem get?_merge_written (m : Metadata) (entries : List MetadataEntry) (key : Text) :
    (m.merge entries).get? key = (lastValue? key (written entries)).or (m.get? key) := by
  by_cases hkey : key = exposesKey
  · have hnone : lastValue? exposesKey (written entries) = none := by
      simp [lastValue?, written]
    rw [hkey, get?_merge_exposesKey, hnone, Option.none_or]
  · rw [← merge_written, get?_merge m _ hkey]

theorem flatMap_exposedProperties (entries : List MetadataEntry) :
    entries.flatMap exposedProperties =
      (entries.filter fun e => e.key = exposesKey).flatMap fun e =>
        (exposedNames e.value).map fun name => ⟨.isProtected, name, some name⟩ := by
  induction entries with
  | nil => rfl
  | cons entry rest ih =>
      by_cases hexposes : entry.key = exposesKey
      · simp [exposedProperties, hexposes, ih]
      · simp [exposedProperties, hexposes, ih]

/-! ## Keys that come in -/

/-- The keys that are not present yet, each where it occurs first. -/
def newKeys (present keys : List Text) : List Text :=
  (keys.filter (· ∉ present)).eraseDups

section NewKeys

variable {present : List Text} {key : Text} {keys : List Text}

theorem newKeys_cons_of_mem (h : key ∈ present) :
    newKeys present (key :: keys) = newKeys present keys := by
  simp [newKeys, h]

theorem newKeys_cons_of_not_mem (h : key ∉ present) :
    newKeys present (key :: keys) = key :: newKeys (present ++ [key]) keys := by
  have hhead : (key :: keys).filter (· ∉ present) = key :: keys.filter (· ∉ present) :=
    List.filter_cons_of_pos (by simpa using h)
  have hrest : (keys.filter (· ∉ present)).filter (fun k => !k == key) =
      keys.filter (· ∉ present ++ [key]) := by
    rw [List.filter_filter]
    refine List.filter_congr fun k _ => ?_
    by_cases hk : k = key
    · simp [hk]
    · simp [hk]
  rw [newKeys, hhead, List.eraseDups_cons, hrest, newKeys]

theorem newKeys_congr {present' : List Text} (h : ∀ k ∈ keys, k ∈ present ↔ k ∈ present') :
    newKeys present keys = newKeys present' keys := by
  have hfilter : keys.filter (· ∉ present) = keys.filter (· ∉ present') :=
    List.filter_congr fun k hk => by simp [h k hk]
  rw [newKeys, hfilter, newKeys]

end NewKeys

/-! ## The order of the keys -/

section Order

variable (m : Metadata) {entries : List MetadataEntry}

theorem keys_mergeEntry_selector {entry : MetadataEntry} (h : entry.key = selectorKey) :
    (m.mergeEntry entry).keys = m.keys.filter (· ≠ selectorKey) ++ [selectorKey] := by
  rw [mergeEntry, if_pos h, keys_replaceSelector]

theorem keys_mergeEntry_other {entry : MetadataEntry} (hselector : entry.key ≠ selectorKey)
    (hexposes : entry.key ≠ exposesKey) :
    (m.mergeEntry entry).keys =
      if entry.key ∈ m.keys then m.keys else m.keys ++ [entry.key] := by
  rw [mergeEntry, if_neg hselector, if_neg hexposes, keys_upsert]

/-- Without a selector among the entries their new keys go behind the old ones. -/
theorem keys_merge_of_no_selector (hexposes : exposesKey ∉ keysOf entries)
    (hselector : selectorKey ∉ keysOf entries) :
    (m.merge entries).keys = m.keys ++ newKeys m.keys (keysOf entries) := by
  induction entries generalizing m with
  | nil => simp [keysOf, newKeys]
  | cons entry rest ih =>
      simp only [keysOf_cons, List.mem_cons, not_or] at hexposes hselector
      have hstep := keys_mergeEntry_other m (Ne.symm hselector.1) (Ne.symm hexposes.1)
      rw [merge_cons, ih _ hexposes.2 hselector.2, hstep, keysOf_cons]
      by_cases hmem : entry.key ∈ m.keys
      · rw [if_pos hmem, newKeys_cons_of_mem hmem]
      · rw [if_neg hmem, newKeys_cons_of_not_mem hmem, List.append_assoc, List.singleton_append]

/-- Wherever the selector goes, the other keys are ordered as if it were in no entry. -/
theorem filter_keys_merge (hexposes : exposesKey ∉ keysOf entries) :
    (m.merge entries).keys.filter (· ≠ selectorKey) =
      m.keys.filter (· ≠ selectorKey) ++
        newKeys m.keys ((keysOf entries).filter (· ≠ selectorKey)) := by
  induction entries generalizing m with
  | nil => simp [keysOf, newKeys]
  | cons entry rest ih =>
      simp only [keysOf_cons, List.mem_cons, not_or] at hexposes
      rw [merge_cons, ih _ hexposes.2, keysOf_cons]
      by_cases hselector : entry.key = selectorKey
      · have hstep := keys_mergeEntry_selector m hselector
        have hothers : newKeys (m.mergeEntry entry).keys
              ((keysOf rest).filter (· ≠ selectorKey)) =
            newKeys m.keys ((keysOf rest).filter (· ≠ selectorKey)) := by
          refine newKeys_congr fun k hk => ?_
          have hne : k ≠ selectorKey := by simpa using (List.mem_filter.1 hk).2
          simp [hstep, hne]
        rw [hothers, hstep]
        simp [hselector]
      · have hstep := keys_mergeEntry_other m hselector (Ne.symm hexposes.1)
        have hhead : (entry.key :: keysOf rest).filter (· ≠ selectorKey) =
            entry.key :: (keysOf rest).filter (· ≠ selectorKey) :=
          List.filter_cons_of_pos (by simpa using hselector)
        rw [hstep, hhead]
        by_cases hmem : entry.key ∈ m.keys
        · rw [if_pos hmem, newKeys_cons_of_mem hmem]
        · rw [if_neg hmem, newKeys_cons_of_not_mem hmem, List.filter_append]
          simp [hselector]

/-- The last selector stands between the new keys of the entries in front of it and behind it. -/
theorem keys_merge_of_selector {before after : List MetadataEntry} {value : Text}
    (hexposes : exposesKey ∉ keysOf (before ++ ⟨selectorKey, value⟩ :: after))
    (hafter : selectorKey ∉ keysOf after) :
    (m.merge (before ++ ⟨selectorKey, value⟩ :: after)).keys =
      m.keys.filter (· ≠ selectorKey) ++
        newKeys m.keys ((keysOf before).filter (· ≠ selectorKey)) ++
        selectorKey :: newKeys (m.keys ++ keysOf before) (keysOf after) := by
  simp only [keysOf_append, keysOf_cons, List.mem_append, List.mem_cons, not_or] at hexposes
  obtain ⟨hbefore, -, hrest⟩ := hexposes
  have hothers := filter_keys_merge m hbefore
  have hselector : ((m.merge before).mergeEntry ⟨selectorKey, value⟩).keys =
      m.keys.filter (· ≠ selectorKey) ++
        newKeys m.keys ((keysOf before).filter (· ≠ selectorKey)) ++ [selectorKey] := by
    rw [keys_mergeEntry_selector _ rfl, hothers]
  have hnew : newKeys ((m.merge before).mergeEntry ⟨selectorKey, value⟩).keys (keysOf after) =
      newKeys (m.keys ++ keysOf before) (keysOf after) := by
    refine newKeys_congr fun k hk => ?_
    have hne : k ≠ selectorKey := fun heq => hafter (heq ▸ hk)
    by_cases hmem : k ∈ m.keys
    · simp [hselector, hne, hmem]
    · simp [hselector, newKeys, hne, hmem]
  rw [merge_append, merge_cons, keys_merge_of_no_selector _ hrest hafter, hnew, hselector]
  simp only [List.append_assoc, List.singleton_append]

/-- Where a key occurs, it occurs for the last time. -/
theorem exists_last_of_mem {key : Text} (h : key ∈ keysOf entries) :
    ∃ before value after,
      entries = before ++ ⟨key, value⟩ :: after ∧ key ∉ keysOf after := by
  induction entries with
  | nil => cases h
  | cons entry rest ih =>
      by_cases hrest : key ∈ keysOf rest
      · obtain ⟨before, value, after, rfl, hafter⟩ := ih hrest
        exact ⟨entry :: before, value, after, rfl, hafter⟩
      · have hkey : key = entry.key := (List.mem_cons.1 h).resolve_right hrest
        exact ⟨[], entry.value, rest, by rw [hkey]; rfl, hrest⟩

end Order

end Metadata

namespace TargetClass

open Metadata

/--
What merging entries into a class leaves: distinct keys, each with its last value; the new keys
behind the old ones in the order of the entries, and a selector that is written among them where
it is written last; and properties for the names that `exposes` entries list.  The rest of the
class stays.
-/
theorem mergeMetadata_outcome (c : TargetClass) (entries : List MetadataEntry) :
    let es := written entries
    let old := c.metadata.keys
    let merged := c.mergeMetadata entries
    merged.metadata.keys.Nodup ∧
    (∀ key, merged.metadata.get? key = (lastValue? key es).or (c.metadata.get? key)) ∧
    (selectorKey ∉ keysOf es → merged.metadata.keys = old ++ newKeys old (keysOf es)) ∧
    (selectorKey ∈ keysOf es →
      ∃ before value after,
        es = before ++ ⟨selectorKey, value⟩ :: after ∧ selectorKey ∉ keysOf after ∧
        merged.metadata.keys =
          old.filter (· ≠ selectorKey) ++ newKeys old ((keysOf before).filter (· ≠ selectorKey)) ++
            selectorKey :: newKeys (old ++ keysOf before) (keysOf after)) ∧
    merged.properties =
      c.properties ++ ((entries.filter fun e => e.key = exposesKey).flatMap fun e =>
        (exposedNames e.value).map fun name => ⟨.isProtected, name, some name⟩) ∧
    merged.constructorBody = c.constructorBody ∧ merged.methods = c.methods ∧
    merged.name = c.name ∧ merged.decorator = c.decorator := by
  intro es old merged
  have hmerged : merged = _ := mergeMetadata_eq c entries
  have hkeys : merged.metadata = c.metadata.merge es := by
    rw [hmerged, merge_written]
  have hexposes : exposesKey ∉ keysOf es := exposesKey_not_mem_written entries
  refine ⟨merged.metadata.keys_nodup, fun key => ?_, fun hselector => ?_, fun hselector => ?_,
    ?_, ?_⟩
  · rw [hkeys, merge_written, get?_merge_written]
  · rw [hkeys, keys_merge_of_no_selector _ hexposes hselector]
  · obtain ⟨before, value, after, hes, hafter⟩ := exists_last_of_mem hselector
    refine ⟨before, value, after, hes, hafter, ?_⟩
    rw [hes] at hexposes
    rw [hkeys, hes, keys_merge_of_selector _ hexposes hafter]
  · rw [hmerged, flatMap_exposedProperties]
  · rw [hmerged]
    exact ⟨rfl, rfl, rfl, rfl⟩

end TargetClass

end NgFile
