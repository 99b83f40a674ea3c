import NgFile.Proofs.ComponentImports
import NgFile.Proofs.PlainTargets
import NgFile.Proofs.StatementEnds

/-!
# Plain scripts

Promotion moves the texts of a script to new places: a value into the constructor, a key out of
its quotes, the body of a hook into a function.  A plain text may be moved, so a script whose
items are plain makes a plain target.
-/

namespace NgFile

open Syntax Syntax.Parser Lexeme ScriptItem

/-! ## Plain items -/

/-- The elements of a list of imports are plain expressions, so that it can be written anew. -/
def MetadataEntry.ListsPlain (e : MetadataEntry) : Prop :=
  e.key = importsKey →
    ∀ elements, IsArrayOf e.value elements → ∀ text ∈ elements, Spelled (Phrase .assignment) text

/-- What a script gives under a key is plain: names to expose, or an entry of the decorator. -/
inductive MetadataEntry.IsPlainGiven (e : MetadataEntry) : Prop
  | exposes (hkey : e.key = Metadata.exposesKey)
      (hnames : ∀ name ∈ Metadata.exposedNames e.value, IsName name)
  | entry (hkey : e.key ≠ Metadata.exposesKey) (hplain : e.IsPlain) (hlist : e.ListsPlain)

inductive ScriptItem.IsPlain : ScriptItem → Prop
  | importDecl {text : Text} {default : Option Text} {fromNgFile : Bool}
      (himport : Spelled Import (terminated text))
      (hname : ∀ name ∈ (importDecl text default fromNgFile).componentName?, IsName name) :
      IsPlain (.importDecl text default fromNgFile)
  | variableDecl {keyword name declarator : Text} {isFunction : Bool} (hname : IsName name)
      (htext : IsPlainStatement (keyword ++ " " ++ declarator ++ ";")) :
      IsPlain (.variableDecl keyword name declarator isFunction)
  | functionDecl {name text : Text} (hname : IsName name) (htext : IsPlainStatement text) :
      IsPlain (.functionDecl name text)
  | defineMetadata {entries : List MetadataEntry} (h : ∀ e ∈ entries, e.IsPlainGiven) :
      IsPlain (.defineMetadata entries)
  | onInit {isAsync : Bool} {statements : List Text}
      (h : ∀ text ∈ statements, IsPlainStatement text) : IsPlain (.onInit isAsync statements)
  | call {text : Text} (htext : IsPlainStatement (terminated text)) : IsPlain (.call text)
  | other (text : Text) : IsPlain (.other text)

/-! ## What is written around the texts -/

theorem IsName.spelled {name : Text} (h : IsName name) : Spelled (Phrase .assignment) name := by
  have htext : name = texts [.name name] := (List.append_nil name).symm
  exact ⟨[.name name], ⟨h, rfl, trivial⟩, htext.symm,
    fun gap pos => .value (.single (.atom (.name name) .noLinks))⟩

namespace Contribution

structure IsPlain (c : Contribution) : Prop where
  importTexts : ∀ text ∈ c.importTexts, Spelled Import (ScriptItem.terminated text)
  statements : ∀ text ∈ c.statements, IsPlainStatement text
  properties : ∀ p ∈ c.properties, p.IsPlain
  methods : ∀ m ∈ c.methods, m.IsPlain
  entries : ∀ e ∈ c.entries, e.IsPlainGiven

theorem phrase_ownAssignment {name : Text} {this dot place equal stop : Place} {us : List Token}
    (hvalue : Phrase .assignment us) :
    Phrase (.statement true) (plainToken (.keyword .kwThis false) this ::
      plainToken (.punct .dot) dot :: plainToken (.name name) place ::
        plainToken (.punct .equal) equal :: (us ++ [plainToken (.punct .semicolon) stop])) :=
  .closed (.expression .this (.assign ⟨name, place, rfl⟩
    (.atom .this (.member (.name name) .noLinks)) hvalue))

theorem isPlainStatement_plainAssignment {name : Text} (h : IsName name) :
    IsPlainStatement (plainAssignment name) := by
  have hname : (Lexeme.name name).WellFormed := h
  have htext : plainAssignment name = "this." ++ (name ++ (" = " ++ (name ++ ";"))) := by
    unfold plainAssignment
    simp only [List.append_assoc]
  refine ⟨true, [.keyword .kwThis, .mark .dot, .name name, .space, .operator .equal, .space,
    .name name, .mark .semicolon], ?_, htext.symm, fun gap pos => ?_⟩
  · exact ⟨trivial, rfl, rfl, rfl, hname, rfl, trivial, rfl, rfl, rfl, trivial, rfl, hname, rfl,
      rfl, rfl, trivial⟩
  · exact phrase_ownAssignment (.value (.single (.atom (.name name) .noLinks)))

theorem isPlainStatement_boundAssignment {name : Text} (h : IsName name) :
    IsPlainStatement (boundAssignment name) := by
  have hname : (Lexeme.name name).WellFormed := h
  have hbind : (Lexeme.name "bind").WellFormed := by decide
  have htext : boundAssignment name = "this." ++ (name ++ (" = " ++ (name ++ ".bind(this);"))) := by
    unfold boundAssignment
    simp only [List.append_assoc]
  refine ⟨true, [.keyword .kwThis, .mark .dot, .name name, .space, .operator .equal, .space,
    .name name, .mark .dot, .name "bind", .mark .parenOpen, .keyword .kwThis, .mark .parenClose,
    .mark .semicolon], ?_, htext.symm, fun gap pos => ?_⟩
  · exact ⟨trivial, rfl, rfl, rfl, hname, rfl, trivial, rfl, rfl, rfl, trivial, rfl, hname, rfl,
      rfl, rfl, hbind, rfl, rfl, rfl, trivial, rfl, rfl, rfl, rfl, rfl, trivial⟩
  · exact phrase_ownAssignment (.value (.single (.atom (.name name) (.member (.name "bind")
      (.call (.items (.lastItem (.value (.single (.atom .this .noLinks))))) .noLinks)))))

/-- The statements of a hook, each on a line of its own. -/
theorem flatMap_newline_eq_lines (ts : List Text) :
    ts.flatMap (fun statement => '\n' :: statement) ++ ['\n'] = "\n" ++ Render.lines 0 ts := by
  induction ts with
  | nil => rfl
  | cons text more ih =>
      rw [List.flatMap_cons, List.append_assoc, ih]
      simp [Render.lines, Text.replicated]

/-- A function in front of its body, with statements in it. -/
theorem isPlainStatement_around {body : Text} (h : Spelled (Phrase .statements) body) :
    IsPlainStatement ("function onInit() \x7b" ++ body ++ "\x7d") ∧
      IsPlainStatement ("async function onInit() \x7b" ++ body ++ "\x7d") := by
  have hname : (Lexeme.name "onInit").WellFormed := by decide
  rw [List.append_assoc, List.append_assoc]
  constructor
  · refine ⟨true, h.join spelled_nil [.keyword .kwFunction, .space, .name "onInit",
        .mark .parenOpen, .mark .parenClose, .space, .mark .braceOpen] (.mark .braceClose) []
      (fun _ hls => ⟨trivial, rfl, trivial, rfl, hname, rfl, rfl, rfl, rfl, rfl, trivial, rfl,
        rfl, rfl, hls⟩)
      (fun _ hls => ⟨rfl, rfl, hls⟩) rfl ?_⟩
    rintro gap pos gap' pos' us _ hus rfl -
    exact .function (.plain _) .none hus
  · refine ⟨true, h.join spelled_nil [.keyword .kwAsync, .space, .keyword .kwFunction, .space,
        .name "onInit", .mark .parenOpen, .mark .parenClose, .space, .mark .braceOpen]
      (.mark .braceClose) []
      (fun _ hls => ⟨trivial, rfl, trivial, rfl, trivial, rfl, trivial, rfl, hname, rfl, rfl, rfl,
        rfl, rfl, trivial, rfl, rfl, rfl, hls⟩)
      (fun _ hls => ⟨rfl, rfl, hls⟩) rfl ?_⟩
    rintro gap pos gap' pos' us _ hus rfl -
    exact .function (.async _ (by simp [gapAfter])) .none hus

/-- A hook is a plain function, if its statements are plain. -/
theorem isPlainStatement_hookFunction (isAsync : Bool) {ts : List Text}
    (h : ∀ text ∈ ts, IsPlainStatement text) : IsPlainStatement (hookFunction isAsync ts) := by
  have hempty : Spelled (Phrase .statements) [] :=
    spelled_nil.mono fun us hus => hus ▸ .noStatements
  have hlines : Spelled (Phrase .statements) ("\n" ++ Render.lines 0 ts) :=
    (Render.spelled_lines 0 h).behind [.newline] (fun _ hls => ⟨trivial, rfl, hls⟩)
      (fun _ _ _ hus => hus)
  rw [← flatMap_newline_eq_lines] at hlines
  cases ts with
  | nil =>
      obtain ⟨hplain, hasync⟩ := isPlainStatement_around hempty
      cases isAsync with
      | false => exact hplain
      | true => exact hasync
  | cons text more =>
      obtain ⟨hplain, hasync⟩ := isPlainStatement_around hlines
      cases isAsync with
      | false => exact hplain
      | true => exact hasync

theorem isPlain_hookCaller : hookCaller.IsPlain := by
  have hstatement : IsPlainStatement "this.onInit();" := by
    refine ⟨true, [.keyword .kwThis, .mark .dot, .name "onInit", .mark .parenOpen,
      .mark .parenClose, .mark .semicolon], by decide, rfl, fun gap pos => ?_⟩
    exact .closed (.expression .this (.value (.single (.atom .this (.member (.name "onInit")
      (.call .noItems .noLinks))))))
  exact ⟨by decide, rfl, List.forall_mem_singleton.2 hstatement⟩

theorem isPlain_nothing : nothing.IsPlain :=
  ⟨List.forall_mem_nil _, List.forall_mem_nil _, List.forall_mem_nil _, List.forall_mem_nil _,
    List.forall_mem_nil _⟩

theorem isPlain_promoted {name redeclaration assignment : Text} (hname : IsName name)
    (hredeclaration : IsPlainStatement redeclaration)
    (hassignment : IsPlainStatement assignment) :
    (promoted name redeclaration assignment).IsPlain :=
  { isPlain_nothing with
    statements := List.forall_mem_cons.2 ⟨hredeclaration, List.forall_mem_singleton.2 hassignment⟩
    properties := List.forall_mem_singleton.2 ⟨rfl, hname, fun _ h => nomatch h⟩ }

theorem isPlain_exposedProperties {e : MetadataEntry} (he : e.IsPlainGiven) :
    ∀ p ∈ Metadata.exposedProperties e, p.IsPlain := by
  unfold Metadata.exposedProperties
  cases he with
  | exposes hkey hnames =>
      rw [if_pos hkey]
      intro p hp
      obtain ⟨name, hname, rfl⟩ := List.mem_map.1 hp
      refine ⟨rfl, hnames name hname, fun text htext => ?_⟩
      cases htext
      exact (hnames name hname).spelled
  | entry hkey =>
      rw [if_neg hkey]
      exact List.forall_mem_nil _

/-- A plain item adds plain texts. -/
theorem isPlain_ofItem {item : ScriptItem} (h : item.IsPlain) : (ofItem item).IsPlain := by
  cases h with
  | importDecl himport =>
      refine { isPlain_nothing with importTexts := List.forall_mem_singleton.2 ?_ }
      rwa [terminated_eq_self_iff.2 (endsStatement_terminated _)]
  | variableDecl hname htext =>
      refine isPlain_promoted hname htext ?_
      split
      · exact isPlainStatement_boundAssignment hname
      · exact isPlainStatement_plainAssignment hname
  | functionDecl hname htext =>
      exact isPlain_promoted hname htext (isPlainStatement_boundAssignment hname)
  | defineMetadata h =>
      refine { isPlain_nothing with properties := fun p hp => ?_, entries := h }
      obtain ⟨e, he, hp⟩ := List.mem_flatMap.1 hp
      exact isPlain_exposedProperties (h e he) p hp
  | @onInit isAsync statements h =>
      have hname : IsName "onInit" := by decide
      refine { isPlain_promoted hname (isPlainStatement_hookFunction isAsync h)
        (isPlainStatement_boundAssignment hname) with
        methods := List.forall_mem_singleton.2 isPlain_hookCaller }
  | call htext => exact { isPlain_nothing with statements := List.forall_mem_singleton.2 htext }
  | other text => exact isPlain_nothing

end Contribution

/-! ## Plain targets from plain scripts -/

/-- Plain expressions in brackets. -/
theorem spelled_arrayLiteral {elements : List Text}
    (h : ∀ text ∈ elements, Spelled (Phrase .assignment) text) :
    Spelled (Phrase .assignment) (arrayLiteral elements) := by
  have hlist : Spelled (Phrase .list) (Text.joinWith ", " elements) := by
    by_cases hne : elements = []
    · subst hne
      exact spelled_nil.mono fun us hus => hus ▸ .noItems
    · exact (spelled_joinWith (.mark .comma) [.space]
        (fun _ hls => ⟨rfl, rfl, trivial, rfl, hls⟩) rfl (fun _ hts => .lastItem hts)
        (fun _ _ _ _ hts hus => .item hts hus) hne h).mono fun _ hus => .items hus
  refine hlist.join spelled_nil [.mark .bracketOpen] (.mark .bracketClose) []
    (fun _ hls => ⟨rfl, rfl, hls⟩) (fun _ hls => ⟨rfl, rfl, hls⟩) rfl ?_
  rintro gap pos gap' pos' us _ hus rfl -
  exact .value (.single (.array hus .noLinks))

namespace Target

variable {t : Target} {items : List ScriptItem}

/-- Plain items keep a target plain, and what it lists under `imports`. -/
theorem isPlain_promote (ht : t.IsPlain) (hlists : ∀ e ∈ t.entity.metadata.entries, e.ListsPlain)
    (hitems : ∀ item ∈ items, item.IsPlain) :
    (t.promote items).IsPlain ∧
      ∀ e ∈ (t.promote items).entity.metadata.entries, e.ListsPlain := by
  have hadded (item : ScriptItem) (hitem : item ∈ items) : (Contribution.ofItem item).IsPlain :=
    Contribution.isPlain_ofItem (hitems item hitem)
  -- An entry was there before, or is one of an item that lists no names to expose.
  have hentries : ∀ e ∈ (t.entity.metadata.merge
      (items.flatMap fun i => (Contribution.ofItem i).entries)).entries,
      e.IsPlain ∧ e.ListsPlain := by
    intro e he
    rcases Metadata.mem_merge he with he | ⟨he, hkey⟩
    · exact ⟨ht.entity.metadata e he, hlists e he⟩
    · obtain ⟨item, hitem, he⟩ := List.mem_flatMap.1 he
      cases (hadded item hitem).entries e he with
      | exposes hexposes => exact absurd hexposes hkey
      | entry _ hplain hlist => exact ⟨hplain, hlist⟩
  rw [promote_eq_append]
  refine ⟨⟨List.forall_mem_append.2 ⟨ht.imports, fun text htext => ?_⟩,
    { ht.entity with
      metadata := fun e he => (hentries e he).1
      properties := List.forall_mem_append.2 ⟨ht.entity.properties, fun p hp => ?_⟩
      constructorBody :=
        List.forall_mem_append.2 ⟨ht.entity.constructorBody, fun text htext => ?_⟩
      methods := List.forall_mem_append.2 ⟨ht.entity.methods, fun m hm => ?_⟩ }⟩,
    fun e he => (hentries e he).2⟩
  · obtain ⟨item, hitem, htext⟩ := List.mem_flatMap.1 htext
    exact (hadded item hitem).importTexts text htext
  · obtain ⟨item, hitem, hp⟩ := List.mem_flatMap.1 hp
    exact (hadded item hitem).properties p hp
  · obtain ⟨item, hitem, htext⟩ := List.mem_flatMap.1 htext
    exact (hadded item hitem).statements text htext
  · obtain ⟨item, hitem, hm⟩ := List.mem_flatMap.1 hm
    exact (hadded item hitem).methods m hm

theorem isPlain_aggregateImports (ht : t.IsPlain)
    (hlists : ∀ e ∈ t.entity.metadata.entries, e.ListsPlain) {names : List Text}
    (hnames : ∀ name ∈ names.filter (fun name => !name.isEmpty), IsName name) :
    (t.aggregateImports names).IsPlain := by
  have hkept := fun name hname => (hnames name hname).spelled
  unfold aggregateImports
  split
  · exact ht
  · dsimp only
    split
    · exact ht
    · rename_i value hvalue
      have hspelled : Spelled (Phrase .assignment) value := by
        cases hget : t.entity.metadata.get? importsKey with
        | none =>
            rw [hget] at hvalue
            cases hvalue
            exact spelled_arrayLiteral hkept
        | some existing =>
            rw [hget, extendedImports?] at hvalue
            split at hvalue
            · cases hvalue
            · obtain ⟨elements, harray, rfl⟩ := Option.map_eq_some_iff.1 hvalue
              obtain ⟨e, he, hkey, rfl⟩ := Metadata.exists_of_get? hget
              exact spelled_arrayLiteral (List.forall_mem_append.2
                ⟨hlists e he hkey elements (arrayElements?_eq_some_iff.1 harray), hkept⟩)
      refine ⟨ht.imports, { ht.entity with metadata := fun e he => ?_ }⟩
      rcases Metadata.mem_upsertIn he with rfl | he
      · have hkey : IsBareKey importsKey := by decide
        exact ⟨hkey, hspelled⟩
      · exact ht.entity.metadata e he

end Target

namespace Scaffold

variable (file template style : Text) (names : Names) (kind : EntityKind)

theorem isPlain_entries (h : IsVerbatim names.selector) :
    ∀ e ∈ entries names template style kind, e.IsPlain := by
  have hstandalone : MetadataEntry.IsPlain ⟨"standalone", "true"⟩ :=
    ⟨by decide, [.keyword .kwTrue], by decide, rfl,
      fun gap pos => .value (.single (.atom .yes .noLinks))⟩
  have hselectorKey : IsBareKey "selector" := by decide
  have hselector : MetadataEntry.IsPlain ⟨"selector", "'" ++ names.selector ++ "'"⟩ :=
    ⟨hselectorKey, [.string names.selector], ⟨h, rfl, trivial⟩, by simp [texts, text],
      fun gap pos => .value (.single (.atom (.string _) .noLinks))⟩
  have hchange : MetadataEntry.IsPlain
      ⟨"changeDetection", "ChangeDetectionStrategy.OnPush"⟩ :=
    ⟨by decide, [.name "ChangeDetectionStrategy", .mark .dot, .name "OnPush"], by decide, rfl,
      fun gap pos => .value (.single (.atom (.name _) (.member (.name _) .noLinks)))⟩
  have htemplateKey : IsBareKey "template" := by decide
  have htemplate : MetadataEntry.IsPlain
      ⟨"template", templateLiteral (inlineTemplate template style)⟩ :=
    ⟨htemplateKey, [.template (inlineTemplate template style)], ⟨trivial, rfl, trivial⟩,
      by simp [texts, text],
      fun gap pos => .value (.single (.atom (.template (isSome_cooked_escapeTemplate _)) .noLinks))⟩
  cases kind with
  | component => simpa [entries] using ⟨hstandalone, hselector, hchange, htemplate⟩
  | directive => simpa [entries] using ⟨hstandalone, hselector⟩

/-- The target of a scaffold is plain, if its selector needs no escapes. -/
theorem isPlain_target (h : IsVerbatim names.selector) :
    (target file names template style kind).IsPlain := by
  have himport : Spelled Import (texts (importLexemes kind)) := by
    refine ⟨importLexemes kind, by cases kind <;> decide, rfl, fun gap pos => ?_⟩
    cases kind with
    | component =>
        exact .clause (.names (.named (.more (.name (by decide)) (.last (.name (by decide))))))
    | directive => exact .clause (.names (.named (.last (.name (by decide)))))
  have hname : IsName entityClassName := by decide
  have hdecorator : IsName kind.decoratorName := by cases kind <;> decide
  have hends := (isTerminated_target file names template style kind).importTexts
  refine ⟨fun text htext => ?_, ?_⟩
  · rw [terminated_eq_self_iff.2 (hends text htext), List.mem_singleton.1 htext]
    exact himport
  · refine ⟨hname, hdecorator, fun e he => ?_, List.forall_mem_nil _,
      List.forall_mem_nil _, List.forall_mem_nil _⟩
    rw [target, entries_ofEntries] at he
    exact isPlain_entries template style names kind h e he

/-- A scaffold lists no imports. -/
theorem listsPlain_target :
    ∀ e ∈ (target file names template style kind).entity.metadata.entries, e.ListsPlain := by
  intro e he hkey
  rw [target, entries_ofEntries] at he
  have hkeys : importsKey ∉ (entries names template style kind).map MetadataEntry.key := by
    cases kind <;> simp [entries] <;> decide
  exact absurd (hkey ▸ List.mem_map_of_mem he) hkeys

end Scaffold

/-- A plain script makes a plain target of a scaffold that can be lifted. -/
theorem isPlain_withScript {names : Names} (h : IsVerbatim names.selector)
    (file template style : Text) (kind : EntityKind) {items : Option (List ScriptItem)}
    (hitems : ∀ list ∈ items, ∀ item ∈ list, item.IsPlain) :
    ((Scaffold.target file names template style kind).withScript items).IsPlain := by
  have htarget := Scaffold.isPlain_target file template style names kind h
  cases items with
  | none => exact htarget
  | some items =>
      have hplain := hitems items rfl
      obtain ⟨hpromoted, hlists⟩ := Target.isPlain_promote htarget
        (Scaffold.listsPlain_target file template style names kind) hplain
      refine Target.isPlain_aggregateImports hpromoted hlists fun name hname => ?_
      rw [ScriptItem.filter_componentImports] at hname
      obtain ⟨item, hitem, hbound⟩ := List.mem_filterMap.1 hname
      cases hplain item hitem with
      | importDecl _ hbinding => exact hbinding name hbound
      | _ => cases hbound

end NgFile
