import NgFile.Text

/-!
# Decorator metadata

The metadata of a decorator is an ordered list of entries with pairwise distinct
keys, each holding the source text of its value.  Writing to a present key keeps
its place, writing to a new key appends it, and removing a key closes the gap.
-/

namespace NgFile

/-- One `key: value` entry; the value is source text and is never evaluated. -/
structure MetadataEntry where
  key : Text
  value : Text
  deriving DecidableEq

/-- Entries in output order, no key twice. -/
structure Metadata where
  entries : List MetadataEntry
  keys_nodup : (entries.map MetadataEntry.key).Nodup
  deriving DecidableEq

namespace Metadata

def empty : Metadata :=
  ⟨[], List.nodup_nil⟩

def keys (m : Metadata) : List Text :=
  m.entries.map MetadataEntry.key

def isEmpty (m : Metadata) : Bool :=
  m.entries.isEmpty

def get? (m : Metadata) (key : Text) : Option Text :=
  (m.entries.find? fun e => e.key = key).map MetadataEntry.value

def upsertIn (key value : Text) : List MetadataEntry → List MetadataEntry
  | [] => [⟨key, value⟩]
  | e :: rest => if e.key = key then ⟨key, value⟩ :: rest else e :: upsertIn key value rest

theorem map_key_upsertIn (key value : Text) (entries : List MetadataEntry) :
    (upsertIn key value entries).map MetadataEntry.key =
      if key ∈ entries.map MetadataEntry.key then entries.map MetadataEntry.key
      else entries.map MetadataEntry.key ++ [key] := by
  induction entries with
  | nil => simp [upsertIn]
  | cons e rest ih =>
      by_cases h : e.key = key
      · simp [upsertIn, h]
      · have h' : ¬ key = e.key := fun heq => h heq.symm
        simp only [upsertIn, if_neg h, List.map_cons, ih, List.mem_cons, h', false_or]
        split <;> simp

/-- Overwrite in place when the key is present, append otherwise. -/
def upsert (m : Metadata) (key value : Text) : Metadata where
  entries := upsertIn key value m.entries
  keys_nodup := by
    rw [map_key_upsertIn]
    split
    · exact m.keys_nodup
    · rename_i h
      exact List.nodup_append.2 ⟨m.keys_nodup, by simp, by
        intro a ha b hb heq
        rw [List.mem_singleton] at hb
        exact h (hb ▸ heq ▸ ha)⟩

/-- Remove the entry of a key; the later entries move up. -/
def remove (m : Metadata) (key : Text) : Metadata where
  entries := m.entries.filter fun e => e.key ≠ key
  keys_nodup := m.keys_nodup.sublist (List.filter_sublist.map MetadataEntry.key)

theorem keys_upsert (m : Metadata) (key value : Text) :
    (m.upsert key value).keys = if key ∈ m.keys then m.keys else m.keys ++ [key] :=
  map_key_upsertIn key value m.entries

theorem keys_remove (m : Metadata) (key : Text) :
    (m.remove key).keys = m.keys.filter (· ≠ key) := by
  simp only [keys, remove, List.filter_map]
  rfl

theorem find?_upsertIn (key value other : Text) (entries : List MetadataEntry) :
    ((upsertIn key value entries).find? fun e => e.key = other).map MetadataEntry.value =
      if other = key then some value
      else (entries.find? fun e => e.key = other).map MetadataEntry.value := by
  induction entries with
  | nil =>
      by_cases h : other = key
      · simp [upsertIn, h]
      · simpa [upsertIn, h] using fun heq : key = other => h heq.symm
  | cons e rest ih =>
      by_cases h : e.key = key
      · by_cases ho : other = key
        · simp [upsertIn, h, ho]
        · have hne : ¬ key = other := fun heq => ho heq.symm
          simp [upsertIn, h, ho, hne]
      · by_cases he : e.key = other
        · have ho : ¬ other = key := fun heq => h (he.trans heq)
          simp [upsertIn, he, ho]
        · simp [upsertIn, h, he, ih]

theorem get?_upsert (m : Metadata) (key value other : Text) :
    (m.upsert key value).get? other = if other = key then some value else m.get? other :=
  find?_upsertIn key value other m.entries

theorem get?_remove (m : Metadata) (key other : Text) :
    (m.remove key).get? other = if other = key then none else m.get? other := by
  simp only [get?, remove]
  induction m.entries with
  | nil => simp
  | cons e rest ih =>
      by_cases hk : e.key = key
      · by_cases ho : other = key
        · simp_all
        · have : ¬ e.key = other := fun heq => ho (heq.symm.trans hk)
          simp_all
      · by_cases he : e.key = other
        · have ho : ¬ other = key := fun heq => hk (he.trans heq)
          simp [he, ho]
        · simp_all

def ofEntries (entries : List MetadataEntry) : Metadata :=
  entries.foldl (fun m e => m.upsert e.key e.value) empty

end Metadata

end NgFile
