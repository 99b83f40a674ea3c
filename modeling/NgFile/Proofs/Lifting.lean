import NgFile.Proofs.Classification
import NgFile.Proofs.MergeOrder
import NgFile.Proofs.TemplateIndependence

/-!
# What a scaffold is lifted to

Every scaffold that parses has one outcome.  Its entity classes are lifted in turn: the first one
that cannot be lifted decides, and otherwise the last one is the class of the target.  Of a class
the decorator is looked at first, then the metadata, then the constructors.  The outcomes are
relations on syntax trees; which parts of a list count, and in what order, is said by `Picks`.
-/

namespace NgFile

open Syntax

/-! ## Parts of a list -/

/-- The elements of a list that are related to something, in order, with what they are related
to in their place; all others are left out. -/
inductive Picks {α β : Type} (R : α → β → Prop) : List α → List β → Prop
  | nil : Picks R [] []
  | take {a : α} {b : β} {as : List α} {bs : List β} (h : R a b) (hrest : Picks R as bs) :
      Picks R (a :: as) (b :: bs)
  | skip {a : α} {as : List α} {bs : List β} (h : ∀ b, ¬ R a b) (hrest : Picks R as bs) :
      Picks R (a :: as) bs

theorem picks_iff {α β : Type} {R : α → β → Prop} {f : α → Option β}
    (hf : ∀ a b, f a = some b ↔ R a b) {as : List α} {bs : List β} :
    Picks R as bs ↔ as.filterMap f = bs := by
  constructor
  · intro h
    induction h with
    | nil => rfl
    | take h hrest ih => rw [List.filterMap_cons_some ((hf _ _).2 h), ih]
    | skip h hrest ih =>
        have hnone := Option.eq_none_iff_forall_ne_some.2 fun b hb => h b ((hf _ _).1 hb)
        rw [List.filterMap_cons_none hnone, ih]
  · intro h
    induction as generalizing bs with
    | nil =>
        cases h
        exact .nil
    | cons a as ih =>
        cases ha : f a with
        | none =>
            rw [List.filterMap_cons_none ha] at h
            refine .skip (fun b hb => ?_) (ih h)
            rw [(hf a b).2 hb] at ha
            cases ha
        | some b =>
            rw [List.filterMap_cons_some ha] at h
            subst h
            exact .take ((hf a b).1 ha) (ih rfl)

theorem picks_filterMap {α β : Type} {R : α → β → Prop} {f : α → Option β}
    (hf : ∀ a b, f a = some b ↔ R a b) (as : List α) : Picks R as (as.filterMap f) :=
  (picks_iff hf).2 rfl

/-! ## What counts in a scaffold -/

namespace Syntax

inductive Stmt.DeclaresEntity : Stmt → Syntax.Class → Prop
  | plain (loc : Loc) {c : Syntax.Class} {name : Name} (hname : c.name = some name)
      (htext : name.text = entityClassName) : DeclaresEntity (.classDecl loc c) c
  | exported (loc inner : Loc) {c : Syntax.Class} {name : Name} (hname : c.name = some name)
      (htext : name.text = entityClassName) :
      DeclaresEntity (.exportDefault loc (.classDecl inner c)) c

inductive Stmt.ImportsAs (source : Text) : Stmt → Text → Prop
  | importDecl (loc : Loc) (decl : ImportDecl) : ImportsAs source (.importDecl loc decl)
      (loc.text source)

/-- An expression calls a plain identifier with arguments. -/
inductive Expr.Calls (name : Text) : Expr → List Expr → Prop
  | call (loc calleeLoc : Loc) (typeArgs : List Ty) (args : List Expr) (closing : List Comment)
      (pure : Bool) :
      Calls name (.call loc (.ident calleeLoc name) false typeArgs args closing pure) args

/-- A property has no name that can be told from the text: a spread or a computed key. -/
inductive Property.IsUnnamed : Property → Prop
  | spread (loc : Loc) (argument : Expr) : IsUnnamed (.spread loc argument)
  | pair (loc : Loc) {key : Key} (value : Expr) (h : key.static? = none) :
      IsUnnamed (.pair loc key value)
  | method (loc : Loc) (kind : MethodKind) {key : Key} (f : Func) (h : key.static? = none) :
      IsUnnamed (.method loc kind key f)

/-- The entry that a property becomes; also a method becomes one. -/
inductive Property.LiftsAs (source : Text) : Property → MetadataEntry → Prop
  | plain {p : Property} {entry : MetadataEntry} (h : EntryOf source p entry) :
      LiftsAs source p entry
  | method (loc : Loc) (kind : MethodKind) {key : Key} (f : Func) {name : Text}
      (h : key.static? = some name) :
      LiftsAs source (.method loc kind key f) ⟨name, f.loc.text source⟩

/-- A member of a class is a property, and not one with accessors. -/
inductive Member.IsProperty (source : Text) : Member → ClassProperty → Prop
  | field (loc : Loc) (decorators : List Expr) {modifiers : Modifiers} {key : Key} {name : Text}
      (optional definite : Bool) (type : Option Ty) (value : Option Expr)
      (hplain : modifiers.isAccessor = false) (hname : key.static? = some name) :
      IsProperty source (.field loc decorators modifiers key optional definite type value)
        ⟨TargetClass.scopeOf modifiers.accessibility, name, value.map fun v => v.loc.text source⟩

inductive Member.IsMethod (source : Text) : Member → ClassMethod → Prop
  | method (loc : Loc) (decorators : List Expr) (modifiers : Modifiers) {kind : MethodKind}
      {key : Key} {name : Text} (optional : Bool) (f : Func) (hkind : kind ≠ .constructor)
      (hname : key.static? = some name) :
      IsMethod source (.method loc decorators modifiers kind key optional f)
        ⟨name, TargetClass.stripParens (f.paramsLoc.text source),
          f.statements.map fun s => s.loc.text source⟩

inductive Member.IsConstructor : Member → Func → Prop
  | method (loc : Loc) (decorators : List Expr) (modifiers : Modifiers) (key : Key)
      (optional : Bool) (f : Func) :
      IsConstructor (.method loc decorators modifiers .constructor key optional f) f

end Syntax

/-! ## Outcomes -/

/-- Metadata that entries leave: each key once, where it occurs first, with its last value. -/
structure Metadata.IsLeftBy (entries : List MetadataEntry) (m : Metadata) : Prop where
  nodup : m.keys.Nodup
  keys : m.keys = (keysOf entries).eraseDups
  get? : ∀ key, m.get? key = lastValue? key entries

/-- What a class is lifted to: the first thing that is wrong with it, or all its parts. -/
inductive TargetClass.LiftsTo (file source : Text) (kind : EntityKind) (c : Syntax.Class) :
    Except CompileError TargetClass → Prop
  | missingDecorator (hcalls : Picks (Expr.Calls kind.decoratorName) c.decorators []) :
      LiftsTo file source kind c (.error (.missingDecorator file))
  | noLiteral {args : List Expr} {more : List (List Expr)}
      (hcalls : Picks (Expr.Calls kind.decoratorName) c.decorators (args :: more))
      (hargs : ∀ loc properties rest, args ≠ .object loc properties :: rest) :
      LiftsTo file source kind c (.error (.invalidMetadataArguments file))
  | unnamed {loc : Loc} {properties : List Property} {rest : List Expr} {more : List (List Expr)}
      {p : Property}
      (hcalls : Picks (Expr.Calls kind.decoratorName) c.decorators
        ((.object loc properties :: rest) :: more))
      (hp : p ∈ properties) (hunnamed : p.IsUnnamed) :
      LiftsTo file source kind c (.error (.invalidMetadataArguments file))
  | noConstructor {loc : Loc} {properties : List Property} {rest : List Expr}
      {more : List (List Expr)}
      (hcalls : Picks (Expr.Calls kind.decoratorName) c.decorators
        ((.object loc properties :: rest) :: more))
      (hnamed : ∀ p ∈ properties, ¬ p.IsUnnamed)
      (hconstructors : Picks Member.IsConstructor c.members []) :
      LiftsTo file source kind c (.error (.invalidConstructorBody file))
  | bodiless {loc : Loc} {properties : List Property} {rest : List Expr} {more : List (List Expr)}
      {constructors : List Func} {f : Func}
      (hcalls : Picks (Expr.Calls kind.decoratorName) c.decorators
        ((.object loc properties :: rest) :: more))
      (hnamed : ∀ p ∈ properties, ¬ p.IsUnnamed)
      (hconstructors : Picks Member.IsConstructor c.members constructors)
      (hf : f ∈ constructors) (hbody : f.hasBody = false) :
      LiftsTo file source kind c (.error (.invalidConstructorBody file))
  | lifted {loc : Loc} {properties : List Property} {rest : List Expr} {more : List (List Expr)}
      {entries : List MetadataEntry} {metadata : Metadata} {earlier : List Func} {f : Func}
      {fields : List ClassProperty} {methods : List ClassMethod}
      (hcalls : Picks (Expr.Calls kind.decoratorName) c.decorators
        ((.object loc properties :: rest) :: more))
      (hentries : List.Forall₂ (Property.LiftsAs source) properties entries)
      (hmetadata : metadata.IsLeftBy entries)
      (hconstructors : Picks Member.IsConstructor c.members (earlier ++ [f]))
      (hbodies : ∀ g ∈ earlier ++ [f], g.hasBody = true)
      (hfields : Picks (Member.IsProperty source) c.members fields)
      (hmethods : Picks (Member.IsMethod source) c.members methods) :
      LiftsTo file source kind c (.ok
        { name := entityClassName
          decorator := kind.decoratorName
          metadata := metadata
          properties := fields
          constructorBody := f.statements.map fun s => s.loc.text source
          methods := methods })

/-- What the entity classes of a scaffold are lifted to: the first error, or the last class. -/
inductive Target.LiftsTo (file source : Text) (kind : EntityKind) (imports : List Text)
    (entities : List Syntax.Class) : Except CompileError Target → Prop
  | missingClass (h : entities = []) :
      LiftsTo file source kind imports entities (.error (.missingClass file))
  | failed {front rest : List Syntax.Class} {c : Syntax.Class} {e : CompileError}
      (h : entities = front ++ c :: rest)
      (hfront : ∀ b ∈ front, ∃ t, TargetClass.LiftsTo file source kind b (.ok t))
      (hc : TargetClass.LiftsTo file source kind c (.error e)) :
      LiftsTo file source kind imports entities (.error e)
  | lifted {front : List Syntax.Class} {c : Syntax.Class} {t : TargetClass}
      (h : entities = front ++ [c])
      (hfront : ∀ b ∈ front, ∃ t, TargetClass.LiftsTo file source kind b (.ok t))
      (hc : TargetClass.LiftsTo file source kind c (.ok t)) :
      LiftsTo file source kind imports entities (.ok ⟨file, kind, imports, t⟩)

/-! ## What is picked -/

section Parts

variable {source : Text}

theorem entityClass?_eq_some_iff (s : Stmt) (c : Syntax.Class) :
    Target.entityClass? s = some c ↔ s.DeclaresEntity c := by
  have hname (c : Syntax.Class) :
      c.name.map Syntax.Name.text = some entityClassName ↔
        ∃ name, c.name = some name ∧ name.text = entityClassName :=
    Option.map_eq_some_iff
  constructor
  · intro h
    unfold Target.entityClass? at h
    split at h
    · split at h
      · rename_i hclass
        cases h
        obtain ⟨name, hname, htext⟩ := (hname _).1 hclass
        exact .plain _ hname htext
      · cases h
    · split at h
      · rename_i hclass
        cases h
        obtain ⟨name, hname, htext⟩ := (hname _).1 hclass
        exact .exported _ _ hname htext
      · cases h
    · cases h
  · intro h
    cases h with
    | plain loc h htext => exact if_pos ((hname c).2 ⟨_, h, htext⟩)
    | exported loc inner h htext => exact if_pos ((hname c).2 ⟨_, h, htext⟩)

theorem importText?_eq_some_iff (s : Stmt) (text : Text) :
    Target.importText? source s = some text ↔ s.ImportsAs source text := by
  constructor
  · intro h
    unfold Target.importText? at h
    split at h
    · cases h
      exact .importDecl _ _
    · cases h
  · rintro ⟨loc, decl⟩
    rfl

theorem callOf?_eq_some_iff {name : Text} (e : Expr) (args : List Expr) :
    callOf? name e = some args ↔ e.Calls name args := by
  constructor
  · intro h
    unfold callOf? at h
    split at h
    · split at h
      · rename_i hname
        cases h
        subst hname
        exact .call _ _ _ _ _ _
      · cases h
    · cases h
  · rintro ⟨⟩
    exact if_pos rfl

theorem liftProperty?_eq_some_iff (m : Member) (p : ClassProperty) :
    TargetClass.liftProperty? source m = some p ↔ m.IsProperty source p := by
  constructor
  · intro h
    unfold TargetClass.liftProperty? at h
    split at h
    · split at h
      · cases h
      · rename_i hplain
        obtain ⟨name, hname, rfl⟩ := Option.map_eq_some_iff.1 h
        exact .field _ _ _ _ _ _ (by simpa using hplain) hname
    · cases h
  · rintro ⟨loc, decorators, optional, definite, type, value, hplain, hname⟩
    simp [TargetClass.liftProperty?, hplain, hname]

theorem liftMethod?_eq_some_iff (m : Member) (method : ClassMethod) :
    TargetClass.liftMethod? source m = some method ↔ m.IsMethod source method := by
  constructor
  · intro h
    unfold TargetClass.liftMethod? at h
    split at h
    · split at h
      · cases h
      · rename_i hkind
        obtain ⟨name, hname, rfl⟩ := Option.map_eq_some_iff.1 h
        exact .method _ _ _ _ _ hkind hname
    · cases h
  · rintro ⟨loc, decorators, modifiers, optional, f, hkind, hname⟩
    simp [TargetClass.liftMethod?, hkind, hname, TargetClass.statementTexts]

theorem constructor?_eq_some_iff (m : Member) (f : Func) :
    TargetClass.constructor? m = some f ↔ m.IsConstructor f := by
  constructor
  · intro h
    unfold TargetClass.constructor? at h
    split at h
    · cases h
      exact .method _ _ _ _ _ _
    · cases h
  · rintro ⟨⟩
    rfl

end Parts

/-! ## Metadata -/

namespace Metadata

theorem keys_foldl_upsert (m : Metadata) (entries : List MetadataEntry) :
    (entries.foldl (fun m e => m.upsert e.key e.value) m).keys =
      m.keys ++ newKeys m.keys (keysOf entries) := by
  induction entries generalizing m with
  | nil => simp [keysOf, newKeys]
  | cons entry rest ih =>
      rw [List.foldl_cons, ih, keys_upsert, keysOf_cons]
      by_cases hmem : entry.key ∈ m.keys
      · rw [if_pos hmem, newKeys_cons_of_mem hmem]
      · rw [if_neg hmem, newKeys_cons_of_not_mem hmem, List.append_assoc, List.singleton_append]

theorem get?_foldl_upsert (m : Metadata) (entries : List MetadataEntry) (key : Text) :
    (entries.foldl (fun m e => m.upsert e.key e.value) m).get? key =
      (lastValue? key entries).or (m.get? key) := by
  induction entries generalizing m with
  | nil => rfl
  | cons entry rest ih =>
      rw [List.foldl_cons, ih, get?_upsert, lastValue?_cons, Option.or_assoc]
      by_cases hkey : key = entry.key
      · simp [hkey]
      · simp [hkey, Ne.symm hkey]

theorem ofEntries_eq_iff {entries : List MetadataEntry} {m : Metadata} :
    ofEntries entries = m ↔ m.IsLeftBy entries := by
  have hkeys : (ofEntries entries).keys = (keysOf entries).eraseDups := by
    rw [ofEntries, keys_foldl_upsert]
    simp [newKeys, keys, empty]
  have hvalues (key : Text) : (ofEntries entries).get? key = lastValue? key entries := by
    rw [ofEntries, get?_foldl_upsert]
    exact Option.or_none
  constructor
  · rintro rfl
    exact ⟨(ofEntries entries).keys_nodup, hkeys, hvalues⟩
  · intro h
    exact ext_get? (hkeys.trans h.keys.symm) fun key => (hvalues key).trans (h.get? key).symm

end Metadata

section Properties

variable {source : Text} {p : Property} {properties : List Property}

theorem isUnnamed_iff : p.IsUnnamed ↔ p.static? = none := by
  constructor
  · rintro (⟨⟩ | ⟨_, _, h⟩ | ⟨_, _, _, h⟩)
    · rfl
    · exact h
    · exact h
  · intro h
    cases p with
    | pair loc key value => exact .pair loc value h
    | shorthand loc name default => cases h
    | method loc kind key f => exact .method loc kind f h
    | spread loc argument => exact .spread loc argument

theorem liftsAs_iff {entry : MetadataEntry} :
    (p.static?.map fun key => (⟨key, p.valueText source⟩ : MetadataEntry)) = some entry ↔
      p.LiftsAs source entry := by
  constructor
  · intro h
    obtain ⟨name, hname, rfl⟩ := Option.map_eq_some_iff.1 h
    cases p with
    | pair loc key value => exact .plain (.pair loc value hname)
    | shorthand loc text default =>
        cases hname
        exact .plain (.shorthand loc text default)
    | method loc kind key f => exact .method loc kind f hname
    | spread loc argument => cases hname
  · intro h
    cases h with
    | plain h =>
        cases h with
        | pair loc value h => simp [Property.static?, Property.valueText, h]
        | shorthand loc name default => rfl
    | method loc kind f h => simp [Property.static?, Property.valueText, h]

theorem mapM_eq_some_iff {α β : Type} {f : α → Option β} {xs : List α} {ys : List β} :
    xs.mapM f = some ys ↔ List.Forall₂ (fun x y => f x = some y) xs ys := by
  induction xs generalizing ys with
  | nil =>
      rw [List.forall₂_nil_left_iff]
      exact ⟨fun h => (Option.some.inj h).symm, fun h => by rw [h]; rfl⟩
  | cons x xs ih =>
      rw [List.mapM_cons, List.forall₂_cons_left_iff]
      constructor
      · intro h
        obtain ⟨y, hx, h⟩ := Option.bind_eq_some_iff.1 h
        obtain ⟨ys', hxs, h⟩ := Option.bind_eq_some_iff.1 h
        cases h
        exact ⟨y, ys', hx, ih.1 hxs, rfl⟩
      · rintro ⟨y, ys', hx, hxs, rfl⟩
        rw [hx, ih.2 hxs]
        rfl

/-- Properties that all have names become entries, and the entries metadata. -/
theorem liftMetadata?_eq_some_iff {m : Metadata} :
    TargetClass.liftMetadata? source properties = some m ↔
      ∃ entries, List.Forall₂ (Property.LiftsAs source) properties entries ∧
        m.IsLeftBy entries := by
  rw [TargetClass.liftMetadata?, Option.map_eq_some_iff]
  simp only [mapM_eq_some_iff, liftsAs_iff, Metadata.ofEntries_eq_iff]

theorem exists_liftsAs (source : Text) (h : ∀ p ∈ properties, ¬ p.IsUnnamed) :
    ∃ entries, List.Forall₂ (Property.LiftsAs source) properties entries := by
  induction properties with
  | nil => exact ⟨[], .nil⟩
  | cons p rest ih =>
      obtain ⟨hp, hrest⟩ := List.forall_mem_cons.1 h
      obtain ⟨name, hname⟩ := Option.ne_none_iff_exists'.1 (mt isUnnamed_iff.2 hp)
      obtain ⟨entries, hentries⟩ := ih hrest
      exact ⟨_, .cons (liftsAs_iff.1 (by rw [hname]; rfl)) hentries⟩

theorem not_isUnnamed_of_liftsAs {entries : List MetadataEntry}
    (h : List.Forall₂ (Property.LiftsAs source) properties entries) :
    ∀ p ∈ properties, ¬ p.IsUnnamed := by
  induction h with
  | nil => simp
  | cons hp _ ih =>
      refine List.forall_mem_cons.2 ⟨fun hunnamed => ?_, ih⟩
      have hsome := liftsAs_iff.2 hp
      rw [isUnnamed_iff.1 hunnamed] at hsome
      cases hsome

theorem liftMetadata?_eq_none_iff (source : Text) :
    TargetClass.liftMetadata? source properties = none ↔ ∃ p ∈ properties, p.IsUnnamed := by
  constructor
  · intro h
    by_contra hnone
    obtain ⟨entries, hentries⟩ :=
      exists_liftsAs source fun p hp hunnamed => hnone ⟨p, hp, hunnamed⟩
    rw [liftMetadata?_eq_some_iff.2 ⟨entries, hentries, Metadata.ofEntries_eq_iff.1 rfl⟩] at h
    cases h
  · rintro ⟨p, hp, hunnamed⟩
    refine Option.eq_none_iff_forall_ne_some.2 fun m hm => ?_
    obtain ⟨entries, hentries, _⟩ := liftMetadata?_eq_some_iff.1 hm
    exact not_isUnnamed_of_liftsAs hentries p hp hunnamed

end Properties

/-! ## Constructors -/

section Constructors

variable {source : Text} {members : List Member} {constructors : List Func}

theorem liftConstructor?_of_bodies
    (hconstructors : Picks Member.IsConstructor members constructors)
    (hbodies : ∀ g ∈ constructors, g.hasBody = true) :
    TargetClass.liftConstructor? source members =
      constructors.getLast?.map (TargetClass.statementTexts source) := by
  rw [TargetClass.liftConstructor?, (picks_iff constructor?_eq_some_iff).1 hconstructors]
  exact if_pos (List.all_eq_true.2 hbodies)

theorem liftConstructor?_of_bodiless
    (hconstructors : Picks Member.IsConstructor members constructors) {f : Func}
    (hf : f ∈ constructors) (hbody : f.hasBody = false) :
    TargetClass.liftConstructor? source members = none := by
  rw [TargetClass.liftConstructor?, (picks_iff constructor?_eq_some_iff).1 hconstructors]
  refine if_neg fun hall => ?_
  rw [List.all_eq_true.1 hall f hf] at hbody
  cases hbody

end Constructors

/-! ## Classes -/

namespace TargetClass

variable {file source : Text} {kind : EntityKind} {c : Syntax.Class}

/-- The arguments of the first call of the decorator. -/
theorem findSome?_eq_head? {calls : List (List Expr)} {name : Text}
    (hcalls : Picks (Expr.Calls name) c.decorators calls) :
    c.decorators.findSome? (callOf? name) = calls.head? := by
  rw [← (picks_iff callOf?_eq_some_iff).1 hcalls, List.head?_filterMap]

theorem ofClass_of_liftsTo {r : Except CompileError TargetClass}
    (h : LiftsTo file source kind c r) : ofClass file source kind c = r := by
  cases h with
  | missingDecorator hcalls => rw [ofClass, findSome?_eq_head? hcalls, List.head?_nil]
  | noLiteral hcalls hargs =>
      rw [ofClass, findSome?_eq_head? hcalls, List.head?_cons]
      dsimp only
      split
      · exact absurd rfl (hargs _ _ _)
      · rfl
  | unnamed hcalls hp hunnamed =>
      have hmetadata := (liftMetadata?_eq_none_iff source).2 ⟨_, hp, hunnamed⟩
      simp only [ofClass, findSome?_eq_head? hcalls, List.head?_cons, hmetadata]
  | noConstructor hcalls hnamed hconstructors =>
      obtain ⟨entries, hentries⟩ := exists_liftsAs source hnamed
      have hmetadata :=
        liftMetadata?_eq_some_iff.2 ⟨entries, hentries, Metadata.ofEntries_eq_iff.1 rfl⟩
      have hbody : liftConstructor? source c.members = none :=
        liftConstructor?_of_bodies hconstructors (by simp)
      simp only [ofClass, findSome?_eq_head? hcalls, List.head?_cons, hmetadata, hbody]
  | bodiless hcalls hnamed hconstructors hf hbody =>
      obtain ⟨entries, hentries⟩ := exists_liftsAs source hnamed
      have hmetadata :=
        liftMetadata?_eq_some_iff.2 ⟨entries, hentries, Metadata.ofEntries_eq_iff.1 rfl⟩
      have hnone : liftConstructor? source c.members = none :=
        liftConstructor?_of_bodiless hconstructors hf hbody
      simp only [ofClass, findSome?_eq_head? hcalls, List.head?_cons, hmetadata, hnone]
  | @lifted _ _ _ _ entries _ earlier f _ _ hcalls hentries hmetadata hconstructors hbodies
      hfields hmethods =>
      have hsome := liftMetadata?_eq_some_iff.2 ⟨entries, hentries, hmetadata⟩
      have hbody : liftConstructor? source c.members = some (statementTexts source f) := by
        rw [liftConstructor?_of_bodies hconstructors hbodies, List.getLast?_concat, Option.map_some]
      simp only [ofClass, findSome?_eq_head? hcalls, List.head?_cons, hsome, hbody,
        (picks_iff liftProperty?_eq_some_iff).1 hfields,
        (picks_iff liftMethod?_eq_some_iff).1 hmethods]
      rfl

/-- Every class is lifted to something. -/
theorem exists_liftsTo (file source : Text) (kind : EntityKind) (c : Syntax.Class) :
    ∃ r, LiftsTo file source kind c r := by
  have hcalls : Picks (Expr.Calls kind.decoratorName) c.decorators
      (c.decorators.filterMap (callOf? kind.decoratorName)) :=
    picks_filterMap callOf?_eq_some_iff _
  have hconstructors := picks_filterMap constructor?_eq_some_iff c.members
  generalize c.decorators.filterMap (callOf? kind.decoratorName) = calls at hcalls
  generalize c.members.filterMap constructor? = constructors at hconstructors
  cases calls with
  | nil => exact ⟨_, .missingDecorator hcalls⟩
  | cons args more =>
      by_cases hargs : ∃ loc properties rest, args = .object loc properties :: rest
      · obtain ⟨loc, properties, rest, rfl⟩ := hargs
        by_cases hnamed : ∃ p ∈ properties, p.IsUnnamed
        · obtain ⟨p, hp, hunnamed⟩ := hnamed
          exact ⟨_, .unnamed hcalls hp hunnamed⟩
        · have hnamed' : ∀ p ∈ properties, ¬ p.IsUnnamed := fun p hp h => hnamed ⟨p, hp, h⟩
          by_cases hbodies : ∃ f ∈ constructors, f.hasBody = false
          · obtain ⟨f, hf, hbody⟩ := hbodies
            exact ⟨_, .bodiless hcalls hnamed' hconstructors hf hbody⟩
          · rcases List.eq_nil_or_concat' constructors with rfl | ⟨earlier, f, rfl⟩
            · exact ⟨_, .noConstructor hcalls hnamed' hconstructors⟩
            · obtain ⟨entries, hentries⟩ := exists_liftsAs source hnamed'
              have hbodies' : ∀ g ∈ earlier ++ [f], g.hasBody = true := fun g hg =>
                eq_true_of_ne_false fun hfalse => hbodies ⟨g, hg, hfalse⟩
              exact ⟨_, .lifted hcalls hentries (Metadata.ofEntries_eq_iff.1 rfl) hconstructors
                hbodies' (picks_filterMap liftProperty?_eq_some_iff _)
                (picks_filterMap liftMethod?_eq_some_iff _)⟩
      · exact ⟨_, .noLiteral hcalls fun loc properties rest h => hargs ⟨loc, properties, rest, h⟩⟩

/-- A class is lifted to what it lifts to, and to nothing else. -/
theorem ofClass_eq_iff {r : Except CompileError TargetClass} :
    ofClass file source kind c = r ↔ LiftsTo file source kind c r := by
  refine ⟨fun h => ?_, ofClass_of_liftsTo⟩
  obtain ⟨r', hr'⟩ := exists_liftsTo file source kind c
  rw [← h, ofClass_of_liftsTo hr']
  exact hr'

end TargetClass

/-! ## Scaffolds -/

namespace Target

variable {file source scaffold : Text} {kind : EntityKind} {e : CompileError}

section Statements

variable {statements : List Stmt} {entities : List Syntax.Class} {imports : List Text}
  {r : Except CompileError Target}
  (hentities : Picks Stmt.DeclaresEntity statements entities)

include hentities

theorem ofStatements_of_liftsTo (himports : Picks (Stmt.ImportsAs source) statements imports)
    (h : LiftsTo file source kind imports entities r) :
    ofStatements file source kind statements = r := by
  have hpicked := (picks_iff entityClass?_eq_some_iff).1 hentities
  have himported := (picks_iff importText?_eq_some_iff).1 himports
  cases h with
  | missingClass h =>
      rw [ofStatements, hpicked, h]
      rfl
  | failed h hfront hc =>
      simp only [← TargetClass.ofClass_eq_iff] at hfront hc
      have hrun := mapM_eq_error_iff.2 ⟨_, _, _, h, hfront, hc⟩
      rw [ofStatements, hpicked, hrun]
  | @lifted front c t h hfront hc =>
      simp only [← TargetClass.ofClass_eq_iff] at hfront hc
      obtain ⟨ts, hts⟩ := exists_mapM_ok_iff.2 hfront
      have hlast : [c].mapM (TargetClass.ofClass file source kind) = .ok [t] :=
        mapM_eq_ok_iff.2 (.cons hc .nil)
      have hrun : entities.mapM (TargetClass.ofClass file source kind) = .ok (ts ++ [t]) := by
        rw [h, List.mapM_append, hts, hlast]
        rfl
      rw [ofStatements, hpicked, hrun, himported]
      dsimp only
      rw [List.getLast?_concat]

omit hentities in
/-- The classes of a scaffold are lifted to something. -/
theorem exists_liftsTo (file source : Text) (kind : EntityKind) (imports : List Text)
    (entities : List Syntax.Class) : ∃ r, LiftsTo file source kind imports entities r := by
  cases hrun : entities.mapM (TargetClass.ofClass file source kind) with
  | error e =>
      obtain ⟨front, c, rest, h, hfront, hc⟩ := mapM_eq_error_iff.1 hrun
      simp only [TargetClass.ofClass_eq_iff] at hfront hc
      exact ⟨_, .failed h hfront hc⟩
  | ok ts =>
      rcases List.eq_nil_or_concat' entities with h | ⟨front, c, rfl⟩
      · exact ⟨_, .missingClass h⟩
      · have hall := exists_mapM_ok_iff.1 ⟨ts, hrun⟩
        obtain ⟨t, hc⟩ := hall c (by simp)
        exact ⟨_, .lifted rfl
          (fun b hb => (hall b (by simp [hb])).imp fun _ => TargetClass.ofClass_eq_iff.1)
          (TargetClass.ofClass_eq_iff.1 hc)⟩

theorem ofStatements_eq_iff (himports : Picks (Stmt.ImportsAs source) statements imports) :
    ofStatements file source kind statements = r ↔
      LiftsTo file source kind imports entities r := by
  refine ⟨fun h => ?_, ofStatements_of_liftsTo hentities himports⟩
  obtain ⟨r', hr'⟩ := exists_liftsTo file source kind imports entities
  rw [← h, ofStatements_of_liftsTo hentities himports hr']
  exact hr'

end Statements

/-- The class is missing only if there is no entity class. -/
theorem missingClass_iff {imports : List Text} {entities : List Syntax.Class} :
    LiftsTo file source kind imports entities (.error (.missingClass file)) ↔ entities = [] := by
  constructor
  · intro h
    cases h with
    | missingClass h => exact h
    | failed h hfront hc => cases hc
  · exact .missingClass

/--
A scaffold that parses is lifted to one thing: the error of the first entity class that has one,
or a target with the last of them and with the imports, or, only if there are none, the error that
the class is missing.
-/
theorem ofScaffold_outcome {program : Program} (hparse : Program.parse scaffold = .ok program)
    (file : Text) (kind : EntityKind) :
    ∃ entities imports,
      Picks Stmt.DeclaresEntity program.body entities ∧
      Picks (Stmt.ImportsAs scaffold) program.body imports ∧
      (ofScaffold file scaffold kind = .error (.missingClass file) ↔ entities = []) ∧
      ∀ r, ofScaffold file scaffold kind = r ↔
        LiftsTo file scaffold kind imports entities r := by
  have hentities := picks_filterMap entityClass?_eq_some_iff program.body
  have himports : Picks (Stmt.ImportsAs scaffold) program.body
      (program.body.filterMap (importText? scaffold)) :=
    picks_filterMap importText?_eq_some_iff _
  have hrun : ofScaffold file scaffold kind = ofStatements file scaffold kind program.body := by
    rw [ofScaffold, hparse]
  rw [hrun]
  exact ⟨_, _, hentities, himports,
    (ofStatements_eq_iff hentities himports).trans missingClass_iff,
    fun r => ofStatements_eq_iff hentities himports⟩

/-- Of two entity classes the last one counts; the repeated key keeps its place, and the computed
member is left out. -/
theorem ofScaffold_outcome_last :
    let scaffold : Text :=
      "import 'a';@Directive(\x7b\x7d)class AnalogNgEntity\x7bconstructor()\x7b\x7d\x7d" ++
        "@Directive(\x7bb:1,'c':2,b:3\x7d)export default class AnalogNgEntity" ++
        "\x7bprivate x=y;[k]=2;constructor()\x7bf()\x7dm(p)\x7bg()\x7d\x7d"
    let target : Target :=
      { fileName := "card.ng"
        kind := .directive
        importTexts := ["import 'a';"]
        entity :=
          { name := "AnalogNgEntity"
            decorator := "Directive"
            metadata := ⟨[⟨"b", "3"⟩, ⟨"c", "2"⟩], by decide⟩
            properties := [⟨.isPrivate, "x", some "y"⟩]
            constructorBody := ["f()"]
            methods := [⟨"m", "p", ["g()"]⟩] } }
    ∃ program entities imports,
      Program.parse scaffold = .ok program ∧
      Picks Stmt.DeclaresEntity program.body entities ∧
      Picks (Stmt.ImportsAs scaffold) program.body imports ∧
      LiftsTo "card.ng" scaffold .directive imports entities (.ok target) := by
  intro scaffold target
  have hrun : ofScaffold "card.ng" scaffold .directive = .ok target := by decide +kernel
  cases hprogram : Program.parse scaffold with
  | error e =>
      rw [ofScaffold, hprogram] at hrun
      cases hrun
  | ok program =>
      obtain ⟨entities, imports, hentities, himports, -, hlift⟩ :=
        ofScaffold_outcome hprogram "card.ng" .directive
      exact ⟨program, entities, imports, rfl, hentities, himports, (hlift _).1 hrun⟩

end Target

end NgFile
