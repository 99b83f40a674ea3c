import NgFile.Proofs.Identifier

/-!
# Adding imports in turn

Component imports can be added in one go or in turn.  In between, what has been added is only a
text, which is read again for the next names.  Nothing is lost by that as long as elements that
are put together to an array literal are read back as they are: names always are, and for the
elements of a literal from a script it is a condition.
-/

namespace NgFile

open Syntax

namespace Metadata

theorem upsertIn_upsertIn (key value value' : Text) (entries : List MetadataEntry) :
    upsertIn key value' (upsertIn key value entries) = upsertIn key value' entries := by
  induction entries with
  | nil => simp [upsertIn]
  | cons e rest ih =>
      by_cases h : e.key = key
      · simp [upsertIn, h]
      · simp [upsertIn, h, ih]

/-- Of two values that are written under a key in turn the second one stays. -/
theorem upsert_upsert (m : Metadata) (key value value' : Text) :
    (m.upsert key value).upsert key value' = m.upsert key value' := by
  simp only [upsert, upsertIn_upsertIn]

theorem upsertIn_of_find? {key value : Text} {entries : List MetadataEntry}
    (h : (entries.find? fun e => e.key = key).map MetadataEntry.value = some value) :
    upsertIn key value entries = entries := by
  induction entries with
  | nil => cases h
  | cons e rest ih =>
      by_cases hkey : e.key = key
      · have hvalue : e.value = value := by simpa [hkey] using h
        rw [upsertIn, if_pos hkey, ← hkey, ← hvalue]
      · have hrest : (rest.find? fun e => e.key = key).map MetadataEntry.value = some value := by
          simpa [hkey] using h
        rw [upsertIn, if_neg hkey, ih hrest]

theorem upsert_of_get? {m : Metadata} {key value : Text} (h : m.get? key = some value) :
    m.upsert key value = m := by
  simp only [upsert, upsertIn_of_find? h]

end Metadata

/-! ## Reading elements back -/

/-- The elements are read back when they are put together to an array literal. -/
def AreReadBack (elements : List Text) : Prop :=
  IsArrayOf (arrayLiteral elements) elements

instance (elements : List Text) : Decidable (AreReadBack elements) :=
  inferInstanceAs (Decidable (IsArrayOf _ _))

/--
A hole can keep elements apart that run together without it: the second comparison would begin
where the type arguments of a call end.
-/
example :
    IsArrayOf "[a < b, , c > (x)++]" ["a < b", "c > (x)++"] ∧
      ¬ AreReadBack ["a < b", "c > (x)++"] := by
  decide +kernel

/-- Names that count as imports, in order. -/
def recorded (names : List Text) : List Text :=
  names.filter fun name => !name.isEmpty

theorem recorded_append (first second : List Text) :
    recorded (first ++ second) = recorded first ++ recorded second :=
  List.filter_append first second

theorem areReadBack_recorded {names : List Text} (h : ∀ n ∈ names, n = [] ∨ IsIdentifier n) :
    AreReadBack (recorded names) := by
  refine isArrayOf_identifiers fun name hname => ?_
  obtain ⟨hmem, hkept⟩ := List.mem_filter.1 hname
  have hne : name ≠ [] := by simpa using hkept
  exact (h name hmem).resolve_left hne

/-! ## The value in turn -/

def importsWith (value : Option Text) (names : List Text) : Option Text :=
  (extendedImports? value names).or value

section Value

variable {text : Text} {elements first second names : List Text}

theorem importsWith_none (names : List Text) : importsWith none names = some (arrayLiteral names) :=
  rfl

theorem importsWith_nil (text : Text) : importsWith (some text) [] = some text := rfl

theorem importsWith_array (h : IsArrayOf text elements) (hne : names ≠ []) :
    importsWith (some text) names = some (arrayLiteral (elements ++ names)) := by
  have hnames : names.isEmpty = false := by simpa using hne
  rw [importsWith, extendedImports?, hnames, arrayElements?_eq_some_iff.2 h]
  rfl

theorem importsWith_other (h : ∀ elements, ¬ IsArrayOf text elements) (names : List Text) :
    importsWith (some text) names = some text := by
  rw [importsWith, extendedImports?, arrayElements?_eq_none_iff.2 h]
  split <;> rfl

/-- A literal that is written is extended by the second names as it would be by all of them. -/
theorem importsWith_arrayLiteral (h : AreReadBack (elements ++ first)) (second : List Text) :
    importsWith (some (arrayLiteral (elements ++ first))) second =
      some (arrayLiteral (elements ++ (first ++ second))) := by
  by_cases hsecond : second = []
  · rw [hsecond, List.append_nil, importsWith_nil]
  · rw [importsWith_array h hsecond, List.append_assoc]

theorem importsWith_append {value : Option Text} (hfirst : AreReadBack first)
    (hreads : ∀ text elements, value = some text → IsArrayOf text elements →
      AreReadBack (elements ++ first)) :
    importsWith (importsWith value first) second = importsWith value (first ++ second) := by
  cases value with
  | none =>
      have hfirst' : AreReadBack ([] ++ first) := hfirst
      exact importsWith_arrayLiteral hfirst' second
  | some text =>
      by_cases hempty : first = []
      · rw [hempty, importsWith_nil, List.nil_append]
      · by_cases harray : ∃ elements, IsArrayOf text elements
        · obtain ⟨elements, helements⟩ := harray
          have hall : first ++ second ≠ [] := List.append_ne_nil_of_left_ne_nil hempty second
          rw [importsWith_array helements hempty, importsWith_array helements hall,
            importsWith_arrayLiteral (hreads text elements rfl helements)]
        · have hother := not_exists.1 harray
          rw [importsWith_other hother, importsWith_other hother, importsWith_other hother]

/-- The names are the last elements of a literal, and those that were there are the first ones. -/
theorem isArrayOf_importsWith (h : IsArrayOf text elements)
    (hreads : AreReadBack (elements ++ names)) :
    ∃ text', importsWith (some text) names = some text' ∧ IsArrayOf text' (elements ++ names) := by
  by_cases hempty : names = []
  · subst hempty
    rw [List.append_nil]
    exact ⟨text, importsWith_nil text, h⟩
  · exact ⟨_, importsWith_array h hempty, hreads⟩

end Value

/-! ## The target in turn -/

namespace Target

def imports? (t : Target) : Option Text :=
  t.entity.metadata.get? importsKey

def withImports (t : Target) (value : Text) : Target :=
  t.mapEntity fun c => { c with metadata := c.metadata.upsert importsKey value }

theorem withImports_withImports (t : Target) (value value' : Text) :
    (t.withImports value).withImports value' = t.withImports value' := by
  simp only [withImports, mapEntity, Metadata.upsert_upsert]

theorem imports?_withImports (t : Target) (value : Text) :
    (t.withImports value).imports? = some value := by
  simp [imports?, withImports, mapEntity, Metadata.get?_upsert]

theorem withImports_of_imports? {t : Target} {value : Text} (h : t.imports? = some value) :
    t.withImports value = t := by
  rw [withImports, mapEntity, Metadata.upsert_of_get? h]

theorem aggregateImports_directive {t : Target} (h : t.kind = .directive) (names : List Text) :
    t.aggregateImports names = t := by
  rw [aggregateImports, h]

/-- A component always has imports in the end; they may be the ones that it had. -/
theorem aggregateImports_component {t : Target} (h : t.kind = .component) (names : List Text) :
    ∃ value, importsWith t.imports? (recorded names) = some value ∧
      t.aggregateImports names = t.withImports value := by
  cases hextended : extendedImports? t.imports? (recorded names) with
  | some value =>
      refine ⟨value, by rw [importsWith, hextended, Option.some_or], ?_⟩
      rw [imports?, recorded] at hextended
      simp only [aggregateImports, h, hextended, withImports]
  | none =>
      cases himports : t.imports? with
      | none =>
          rw [himports] at hextended
          cases hextended
      | some value =>
          refine ⟨value, by rw [importsWith, ← himports, hextended, himports, Option.none_or], ?_⟩
          rw [imports?, recorded] at hextended
          simp only [aggregateImports, h, hextended, withImports_of_imports? himports]

section Component

variable {t : Target} (hkind : t.kind = .component) {first second names : List Text}

include hkind

theorem imports?_aggregateImports (names : List Text) :
    (t.aggregateImports names).imports? = importsWith t.imports? (recorded names) :=
  get?_aggregateImports hkind names

theorem aggregateImports_in_turn (hfirst : AreReadBack (recorded first))
    (hreads : ∀ text elements, t.imports? = some text → IsArrayOf text elements →
      AreReadBack (elements ++ recorded first)) (second : List Text) :
    (t.aggregateImports first).aggregateImports second = t.aggregateImports (first ++ second) := by
  obtain ⟨value, hvalue, honce⟩ := aggregateImports_component hkind first
  have hkind' : (t.withImports value).kind = .component := hkind
  obtain ⟨value', hvalue', htwice⟩ := aggregateImports_component hkind' second
  obtain ⟨all, hall, hall'⟩ := aggregateImports_component hkind (first ++ second)
  have hsame : some value' = some all := by
    rw [← hvalue', imports?_withImports, ← hvalue, importsWith_append hfirst hreads,
      ← recorded_append, hall]
  rw [honce, htwice, withImports_withImports, hall', Option.some.inj hsame]

theorem imports?_of_none (h : t.imports? = none) (hnames : AreReadBack (recorded names)) :
    ∃ text, (t.aggregateImports names).imports? = some text ∧ IsArrayOf text (recorded names) := by
  refine ⟨arrayLiteral (recorded names), ?_, hnames⟩
  rw [imports?_aggregateImports hkind, h, importsWith_none]

theorem imports?_of_array {text : Text} {elements : List Text} (h : t.imports? = some text)
    (harray : IsArrayOf text elements) (hreads : AreReadBack (elements ++ recorded names)) :
    ∃ text', (t.aggregateImports names).imports? = some text' ∧
      IsArrayOf text' (elements ++ recorded names) := by
  rw [imports?_aggregateImports hkind, h]
  exact isArrayOf_importsWith harray hreads

end Component

/--
Imports that are added in turn are added as if all of them came at once, and a component lists
them in the end behind the elements that it had, each once and in order.  The elements of its
literal must be readable together with the names, as the names are among themselves.
-/
theorem aggregateImports_append (t : Target) (first second : List Text)
    (hnames : ∀ n ∈ first ++ second, n = [] ∨ IsIdentifier n)
    (hreads : ∀ text elements names, t.imports? = some text → IsArrayOf text elements →
      names <+: recorded (first ++ second) → AreReadBack (elements ++ names)) :
    let twice := (t.aggregateImports first).aggregateImports second
    twice = t.aggregateImports (first ++ second) ∧
    (t.kind = .component →
      (t.imports? = none → ∃ text, twice.imports? = some text ∧
        IsArrayOf text (recorded (first ++ second))) ∧
      ∀ text elements, t.imports? = some text → IsArrayOf text elements →
        ∃ text', twice.imports? = some text' ∧
          IsArrayOf text' (elements ++ recorded (first ++ second))) := by
  intro twice
  have hfirst : AreReadBack (recorded first) :=
    areReadBack_recorded fun n hn => hnames n (List.mem_append_left second hn)
  have hprefix : recorded first <+: recorded (first ++ second) := by
    rw [recorded_append]
    exact List.prefix_append _ _
  have htwice : twice = t.aggregateImports (first ++ second) := by
    cases hkind : t.kind with
    | directive => simp only [twice, aggregateImports_directive hkind]
    | component =>
        exact aggregateImports_in_turn hkind hfirst
          (fun text elements htext harray => hreads text elements _ htext harray hprefix) second
  rw [htwice]
  refine ⟨rfl, fun hkind => ⟨fun hnone => ?_, fun text elements htext harray => ?_⟩⟩
  · exact imports?_of_none hkind hnone (areReadBack_recorded hnames)
  · exact imports?_of_array hkind htext harray
      (hreads text elements _ htext harray (List.prefix_refl _))

/-- A literal loses its comment and its hole to the first name; the second comes behind it. -/
theorem aggregateImports_append_host :
    let host := Scaffold.target "host.ng" (Names.ofIdentifier "host") "<p></p>" [] .component
    let literal : Text := "[NgIf, // shared\n , ...rest]"
    let extended : Text := "[NgIf, ...rest, Card, Badge]"
    let t := host.withImports literal
    let first : List Text := ["Card", ""]
    let second : List Text := ["Badge"]
    (∀ n ∈ first ++ second, n = [] ∨ IsIdentifier n) ∧
      (∀ text elements names, t.imports? = some text → IsArrayOf text elements →
        names <+: recorded (first ++ second) → AreReadBack (elements ++ names)) ∧
      (t.aggregateImports first).aggregateImports second =
        t.aggregateImports (first ++ second) ∧
      (t.aggregateImports (first ++ second)).imports? = some extended := by
  intro host literal extended t first second
  have hnames : ∀ n ∈ first ++ second, n = [] ∨ IsIdentifier n := by decide +kernel
  have hreads : ∀ text elements names, t.imports? = some text → IsArrayOf text elements →
      names <+: recorded (first ++ second) → AreReadBack (elements ++ names) := by
    intro text elements names htext harray hprefix
    have hliteral : arrayElements? literal = some (["NgIf", "...rest"] : List Text) := by
      decide +kernel
    obtain rfl : literal = text :=
      Option.some.inj ((imports?_withImports host literal).symm.trans htext)
    obtain rfl : (["NgIf", "...rest"] : List Text) = elements :=
      Option.some.inj (hliteral.symm.trans (arrayElements?_eq_some_iff.2 harray))
    have hrecorded : recorded (first ++ second) = (["Card", "Badge"] : List Text) := by decide
    simp only [hrecorded, List.prefix_cons_iff, List.prefix_nil] at hprefix
    obtain rfl | ⟨_, rfl, rfl | ⟨_, rfl, rfl⟩⟩ := hprefix <;> decide +kernel
  refine ⟨hnames, hreads, (aggregateImports_append t first second hnames hreads).1, ?_⟩
  decide +kernel

end Target

end NgFile
