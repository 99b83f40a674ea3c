import NgFile.Promotion
import NgFile.Proofs.Failures
import NgFile.Proofs.Naming
import NgFile.Proofs.ScaffoldReading
import NgFile.Proofs.StringLiteral

/-!
# Consistency of scaffolds

A scaffold is consistent if it is lifted to the keys that were written and its selector is
a string literal for the selector.  The selector is put between single quotes as it is, so
the characters of the identifier decide.  For the converse every lifted value is a piece of
the scaffold, and a literal for the selector is too long to stand anywhere else in it.
-/

namespace NgFile

open Syntax Literal Lexeme

/-! ## Lifted values are pieces of the scaffold -/

theorem Text.slice_isInfix (t : Text) (start stop : Nat) : Text.slice t start stop <:+: t :=
  (List.take_prefix _ _).isInfix.trans (List.drop_suffix _ _).isInfix

theorem Syntax.Property.valueText_isInfix (source : Text) (p : Property) :
    p.valueText source <:+: source := by
  cases p with
  | pair loc key value => exact Text.slice_isInfix _ _ _
  | shorthand loc name value => exact Text.slice_isInfix _ _ _
  | method loc kind key function => exact Text.slice_isInfix _ _ _
  | spread loc argument => exact Text.slice_isInfix _ _ _

theorem exists_of_mem_mapM_some {α β : Type} {f : α → Option β} {xs : List α} {ys : List β}
    (h : xs.mapM f = some ys) {y : β} (hy : y ∈ ys) : ∃ x ∈ xs, f x = some y := by
  induction xs generalizing ys with
  | nil =>
      cases h
      cases hy
  | cons x xs ih =>
      rw [List.mapM_cons] at h
      obtain ⟨z, hx, h⟩ := Option.bind_eq_some_iff.1 h
      obtain ⟨zs, hxs, h⟩ := Option.bind_eq_some_iff.1 h
      cases h
      rcases List.mem_cons.1 hy with rfl | hmem
      · exact ⟨x, List.mem_cons_self, hx⟩
      · obtain ⟨x', hmem', hx'⟩ := ih hxs hmem
        exact ⟨x', List.mem_cons_of_mem x hmem', hx'⟩

theorem TargetClass.isInfix_of_liftMetadata? {source : Text} {properties : List Property}
    {m : Metadata} (h : TargetClass.liftMetadata? source properties = some m) :
    ∀ e ∈ m.entries, e.value <:+: source := by
  obtain ⟨entries, hentries, rfl⟩ := Option.map_eq_some_iff.1 h
  intro e he
  obtain ⟨p, _, hp⟩ := exists_of_mem_mapM_some hentries (Metadata.mem_ofEntries he)
  obtain ⟨key, _, rfl⟩ := Option.map_eq_some_iff.1 hp
  exact p.valueText_isInfix source

theorem TargetClass.isInfix_of_ofClass {file source : Text} {kind : EntityKind} {c : Syntax.Class}
    {entity : TargetClass} (h : TargetClass.ofClass file source kind c = .ok entity) :
    ∀ e ∈ entity.metadata.entries, e.value <:+: source := by
  unfold TargetClass.ofClass at h
  split at h
  · cases h
  · split at h
    · split at h
      · cases h
      · rename_i metadata hmetadata
        split at h
        · cases h
        · cases h
          exact TargetClass.isInfix_of_liftMetadata? hmetadata
    · cases h

/-- Every value that is lifted from a scaffold is a piece of it. -/
theorem Target.isInfix_of_ofScaffold {file scaffold : Text} {kind : EntityKind} {t : Target}
    (h : Target.ofScaffold file scaffold kind = .ok t) :
    ∀ e ∈ t.entity.metadata.entries, e.value <:+: scaffold := by
  unfold Target.ofScaffold at h
  split at h
  · cases h
  · unfold Target.ofStatements at h
    split at h
    · cases h
    · rename_i classes hclasses
      split at h
      · cases h
      · rename_i entity hentity
        cases h
        obtain ⟨c, _, hc⟩ := exists_of_mem_mapM_ok hclasses (List.mem_of_getLast? hentity)
        exact TargetClass.isInfix_of_ofClass hc

/-! ## The quotes of a directive's scaffold -/

/-- A character stands in a text after a part without it, or later. -/
theorem eq_or_of_append_cons {q : Char} {p r x a : Text} (hp : q ∉ p)
    (h : p ++ q :: r = x ++ q :: a) : a = r ∨ ∃ x', r = x' ++ q :: a := by
  induction p generalizing x with
  | nil =>
      cases x with
      | nil => exact .inl (List.cons.inj h).2.symm
      | cons c x => exact .inr ⟨x, (List.cons.inj h).2⟩
  | cons c p ih =>
      obtain ⟨hc, hp⟩ := not_or.1 (mt List.mem_cons.2 hp)
      cases x with
      | nil => exact absurd (List.cons.inj h).1.symm hc
      | cons d x => exact ih hp (List.cons.inj h).2

namespace Scaffold

def afterModule : Text :=
  ";\n\n@Directive(\x7b\n  standalone: true,\n  selector: "

def beforeSelector : Text :=
  "import \x7b Directive \x7d from " ++ '\'' :: (coreModule ++ '\'' :: (afterModule ++ ['\'']))

def afterSelector : Text :=
  "\n\x7d)\nexport default class " ++ entityClassName ++
    " \x7b\n  constructor() \x7b\x7d\n\x7d\n"

theorem synthesize_directive (names : Names) (template style : Text) :
    synthesize names template style .directive =
      beforeSelector ++ (names.selector ++ '\'' :: afterSelector) := by
  have hscaffold : synthesize names template style .directive =
      "import \x7b " ++ coreImports .directive ++ " \x7d from '" ++ coreModule ++ "';\n\n@" ++
        EntityKind.directive.decoratorName ++ "(\x7b\n  " ++
        ("standalone" ++ ": " ++ "true" ++ ",\n  " ++
          ("selector" ++ ": " ++ ("'" ++ names.selector ++ "'"))) ++
        "\n\x7d)\nexport default class " ++ entityClassName ++
        " \x7b\n  constructor() \x7b\x7d\n\x7d\n" := rfl
  have hbefore : beforeSelector =
      "import \x7b " ++ (coreImports .directive ++ (" \x7d from '" ++ (coreModule ++ ("';\n\n@" ++
        (EntityKind.directive.decoratorName ++ ("(\x7b\n  " ++ ("standalone" ++ (": " ++
          ("true" ++ (",\n  " ++ ("selector" ++ (": " ++ "'")))))))))))) := by
    decide
  have hafter : '\'' :: afterSelector =
      "'" ++ ("\n\x7d)\nexport default class " ++ (entityClassName ++
        " \x7b\n  constructor() \x7b\x7d\n\x7d\n")) := by
    decide
  rw [hscaffold, hbefore, hafter]
  simp only [List.append_assoc]

/-- The string at the first quote is the name of the module. -/
theorem splitString_module (t : Text) :
    splitString '\'' (coreModule ++ '\'' :: t) = some (coreModule, t) := by
  have hmodule : IsVerbatim coreModule := by decide
  exact splitString_append hmodule (by decide)

/-- There is no string at the second quote. -/
theorem splitString_afterModule (t : Text) : splitString '\'' (afterModule ++ t) = none := by
  have hlines : afterModule ++ t = ';' :: '\n' :: (afterModule.drop 2 ++ t) := rfl
  rw [hlines, splitString_cons_plain (by decide), if_neg (by decide), if_neg (by decide),
    splitString_cons_plain (by decide), if_neg (by decide), if_pos (by decide)]
  rfl

/-- Where a quote stands in front of the selector, and what follows it. -/
theorem after_quote {x a : Text} (h : beforeSelector = x ++ '\'' :: a) :
    a = coreModule ++ '\'' :: (afterModule ++ ['\'']) ∨ a = afterModule ++ ['\''] ∨ a = [] := by
  rcases eq_or_of_append_cons (by decide) h with h | ⟨x, h⟩
  · exact .inl h
  · rcases eq_or_of_append_cons (by decide) h with h | ⟨x, h⟩
    · exact .inr (.inl h)
    · rcases eq_or_of_append_cons (by decide) h with h | ⟨x, h⟩
      · exact .inr (.inr h)
      · cases x <;> cases h

/-- The only quote behind the selector is the one that closes it. -/
theorem eq_nil_of_quote {q : Char} (hq : q = '\'' ∨ q = '"') {d a : Text}
    (h : '\'' :: afterSelector = d ++ q :: a) : d = [] := by
  have hnone : '\'' ∉ afterSelector ∧ '"' ∉ afterSelector := by decide
  cases d with
  | nil => rfl
  | cons c d =>
      have hmem : q ∈ afterSelector := by
        rw [(List.cons.inj h).2]
        exact List.mem_append_right d List.mem_cons_self
      rcases hq with rfl | rfl
      · exact absurd hmem hnone.1
      · exact absurd hmem hnone.2

section Quotes

variable {q : Char} {selector body rest : Text}

/-- A string that begins at the quote in front of the selector does not go beyond it. -/
theorem prefix_of_here (hq : q = '\'' ∨ q = '"')
    (h : selector ++ '\'' :: afterSelector = body ++ q :: rest) : body <+: selector := by
  rcases List.append_eq_append_iff.1 h with ⟨d, hd, htail⟩ | ⟨d, hd, _⟩
  · rw [eq_nil_of_quote hq htail, List.append_nil] at hd
    exact ⟨[], by rw [List.append_nil, hd]⟩
  · exact ⟨d, hd.symm⟩

/-- A string that begins in the selector or behind it is shorter than the selector. -/
theorem length_lt_of_later (hq : q = '\'' ∨ q = '"') {x : Text}
    (h : selector ++ '\'' :: afterSelector = x ++ q :: (body ++ q :: rest)) :
    body.length < selector.length := by
  have hclose : selector ++ '\'' :: afterSelector = (x ++ q :: body) ++ q :: rest := by
    rw [h, List.append_assoc]
    rfl
  have hle := (prefix_of_here hq hclose).length_le
  simp only [List.length_append, List.length_cons] at hle
  omega

/-- A string for the selector at the quote in front of it is the selector, without escapes. -/
theorem isVerbatim_of_here (hsplit : splitString '\'' (body ++ ['\'']) = some (body, []))
    (hlength : selector.length ≤ body.length)
    (hescape : '\\' ∈ body → selector.length < body.length)
    (h : selector ++ '\'' :: afterSelector = body ++ '\'' :: rest) : IsVerbatim selector := by
  have heq : body = selector := (prefix_of_here (.inl rfl) h).eq_of_length_le hlength
  subst heq
  have hplain : '\\' ∉ body := fun hmem => Nat.lt_irrefl _ (hescape hmem)
  intro c hc
  obtain ⟨hquote, hfeed, hreturn⟩ := plain_of_splitString hplain hsplit c hc
  exact ⟨hquote, fun h => hplain (h ▸ hc), hfeed, hreturn⟩

/-- A string literal for the selector in the scaffold of a directive is the selector itself. -/
theorem isVerbatim_of_piece (hcomma : ',' ∈ selector) {literal : Text}
    (hdenotes : Denotes literal selector)
    (hpiece : literal <:+: beforeSelector ++ (selector ++ '\'' :: afterSelector)) :
    IsVerbatim selector := by
  obtain ⟨q, body, hq, rfl, hsplit, hvalue⟩ := hdenotes
  obtain ⟨hlength, hescape⟩ := length_ofStringBody? hvalue
  obtain ⟨x, y, hxy⟩ := hpiece
  have hsource : x ++ q :: (body ++ q :: y) =
      beforeSelector ++ (selector ++ '\'' :: afterSelector) := by
    rw [← hxy]
    simp
  have hbackslash : q ≠ '\\' := by
    rcases hq with rfl | rfl <;> decide
  have hsplit' : splitString q (body ++ q :: y) = some (body, y) := by
    have := splitString_append_right hbackslash hsplit y
    simpa using this
  rcases List.append_eq_append_iff.1 hsource with ⟨a, ha, hrest⟩ | ⟨a, ha, hrest⟩
  · cases a with
    | nil =>
        -- The literal begins where the selector does, so it ends before the selector is over.
        have := length_lt_of_later (x := []) hq hrest.symm
        omega
    | cons c a =>
        -- The literal begins in front of the selector, at one of the three quotes there.
        obtain rfl := (List.cons.inj hrest).1
        have hbody : body ++ q :: y = a ++ (selector ++ '\'' :: afterSelector) :=
          (List.cons.inj hrest).2
        have hquote : q = '\'' := by
          refine hq.resolve_right fun hq => ?_
          have hnone : '"' ∉ beforeSelector := by decide
          exact hnone (by rw [ha, hq]; simp)
        subst hquote
        rw [hbody] at hsplit'
        rcases after_quote ha with rfl | rfl | rfl
        · rw [List.append_assoc] at hsplit'
          have hmodule := hsplit'.symm.trans (splitString_module _)
          obtain rfl := (Prod.mk.inj (Option.some.inj hmodule)).1
          rw [ofStringBody?_of_not_mem (by decide)] at hvalue
          cases hvalue
          exact absurd hcomma (by decide)
        · rw [List.append_assoc, splitString_afterModule] at hsplit'
          cases hsplit'
        · exact isVerbatim_of_here hsplit hlength hescape hbody.symm
  · have := length_lt_of_later hq hrest
    omega

end Quotes

/-! ## Consistency -/

/--
The scaffold of an identifier is lifted, with the keys that were written, and with a string
literal for the selector.
-/
def Consistent (file identifier template style : Text) (kind : EntityKind) : Prop :=
  let names := Names.ofIdentifier identifier
  ∃ t, Target.ofScaffold file (synthesize names template style kind) kind = .ok t ∧
    t.entity.metadata.keys = (entries names template style kind).map MetadataEntry.key ∧
    ∃ literal, t.entity.metadata.get? Metadata.selectorKey = some literal ∧
      Denotes literal names.selector

theorem get?_selectorKey (names : Names) (template style : Text) (kind : EntityKind) :
    (Metadata.ofEntries (entries names template style kind)).get? Metadata.selectorKey =
      some ("'" ++ names.selector ++ "'") := by
  rw [Metadata.get?, entries_ofEntries]
  rfl

theorem consistent_of_isVerbatim {identifier : Text} (h : IsVerbatim identifier)
    (file template style : Text) (kind : EntityKind) :
    Consistent file identifier template style kind := by
  have hselector := (Names.isVerbatim_selector_iff identifier).2 h
  refine ⟨_, ofScaffold_synthesize hselector file template style kind, ?_, _,
    get?_selectorKey _ template style kind, denotes_of_isVerbatim hselector⟩
  rw [Metadata.keys, target, entries_ofEntries]

theorem isVerbatim_of_consistent {file identifier template style : Text}
    (h : Consistent file identifier template style .directive) : IsVerbatim identifier := by
  obtain ⟨t, hlift, _, literal, hget, hdenotes⟩ := h
  obtain ⟨e, he, -, rfl⟩ := Metadata.exists_of_get? hget
  have hpiece := Target.isInfix_of_ofScaffold hlift e he
  rw [synthesize_directive] at hpiece
  have hcomma : ',' ∈ (Names.ofIdentifier identifier).selector := by
    simp [Names.selector]
  exact (Names.isVerbatim_selector_iff identifier).1 (isVerbatim_of_piece hcomma hdenotes hpiece)

/-- A file whose identifier needs no escapes passes the checks on its scaffold. -/
theorem not_isScaffoldCheck_of_compile {input : SourceFile}
    (hverbatim : ∀ identifier, Names.componentIdentifier? input.fileName = some identifier →
      IsVerbatim identifier) {options : CompileOptions} {e : CompileError}
    (h : compile input options = .error e) : ¬ e.IsScaffoldCheck := by
  intro hcheck
  cases htarget : targetOf input with
  | error e' =>
      rw [compile_of_targetOf_error htarget] at h
      cases h
      cases targetOf_eq_error_iff.1 htarget with
      | name hname => cases hcheck
      | sections hname hscript htemplate => cases hcheck
      | scaffold hname hsections hlift =>
          rw [scaffoldTarget_of_isVerbatim (hverbatim _ hname)] at hlift
          cases hlift
      | script hname hsections hbase h => cases isScriptError_of_scriptItems? h <;> cases hcheck
  | ok t =>
      rw [compile_of_targetOf_ok htarget] at h
      cases isOutputSyntax_of_serialize h
      cases hcheck

/--
The scaffolds of an identifier are all consistent exactly if it needs no escapes between
single quotes, and that of a directive never is if it needs some.  Unless the identifier of
a file needs some, compiling the file passes all checks on its scaffold.
-/
theorem consistent_iff_isVerbatim (file : Text) :
    (∀ identifier, Names.componentIdentifier? file = some identifier →
      ((∀ template style kind, Consistent file identifier template style kind) ↔
        IsVerbatim identifier) ∧
      (¬ IsVerbatim identifier →
        ∀ template style, ¬ Consistent file identifier template style .directive)) ∧
    ((∀ identifier, Names.componentIdentifier? file = some identifier → IsVerbatim identifier) →
      ∀ content options e,
        compile ⟨file, content⟩ options = .error e → ¬ e.IsScaffoldCheck) := by
  refine ⟨fun identifier _ => ⟨⟨fun h => ?_, fun h => ?_⟩, ?_⟩, ?_⟩
  · exact isVerbatim_of_consistent (h [] [] .directive)
  · exact consistent_of_isVerbatim h file
  · exact fun h template style hconsistent => h (isVerbatim_of_consistent hconsistent)
  · exact fun h content options e he => not_isScaffoldCheck_of_compile h he

/-- The name of a card needs no escapes, so its scaffolds are consistent. -/
theorem consistent_iff_isVerbatim_card :
    Names.componentIdentifier? "card.ng" = some "card" ∧
      ∀ template style kind, Consistent "card.ng" "card" template style kind := by
  have hidentifier : Names.componentIdentifier? "card.ng" = some "card" := by decide
  have hcard := (consistent_iff_isVerbatim "card.ng").1 "card" hidentifier
  exact ⟨hidentifier, hcard.1.2 (by decide)⟩

/-- An apostrophe in the name of a file ends the selector of its scaffold too early. -/
theorem missingSourceFile_of_apostrophe :
    Names.componentIdentifier? "it's.ng" = some "it's" ∧
      (¬ ∀ template style kind, Consistent "it's.ng" "it's" template style kind) ∧
      ∃ reason, compile ⟨"it's.ng", "<template>x</template>"⟩ ⟨true⟩ =
        .error (.missingSourceFile "it's.ng" reason) := by
  refine ⟨by decide, fun h => ?_, ?_⟩
  · have hverbatim := isVerbatim_of_consistent (h [] [] .directive)
    exact absurd hverbatim (by decide)
  · have hmissing : (match compile ⟨"it's.ng", "<template>x</template>"⟩ ⟨true⟩ with
        | .error (.missingSourceFile file _) => file == ("it's.ng" : Text)
        | _ => false) = true := by
      decide +kernel
    split at hmissing
    · rename_i file reason herror
      refine ⟨reason, ?_⟩
      rw [herror, beq_iff_eq.1 hmissing]
    · cases hmissing

end Scaffold

end NgFile
