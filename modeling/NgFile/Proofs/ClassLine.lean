import NgFile.Proofs.ClassReading
import NgFile.Proofs.Placement

/-!
# The line of a class

An import is printed as one text, whatever is on the page, so behind imports a page is at the
margin again.  The export of a class then begins its line with the same words, and all that is
printed after them leaves them there: the line of the class is found in the printed script.
-/

namespace NgFile

open Formatting Syntax.Parser

namespace Syntax

theorem Page.put_put (p : Page) (s t : Text) : (p.put s).put t = p.put (s ++ t) := by
  simp [Page.put, List.reverseAux_eq, Nat.add_assoc]

theorem Page.text_put (p : Page) (t : Text) : (p.put t).text = p.text ++ t := by
  simp [Page.put, Page.text, List.reverseAux_eq]

namespace Writing

/-- Whatever is on the page stays in front of what is written. -/
theorem prefix_text (w : Writing) (p : Page) : p.text <+: (w.onto p).text :=
  List.reverse_prefix.2 (w.grows p)

/-! ## Writings of one text -/

/-- A writing that is one text, whatever is on the page. -/
def Puts (w : Writing) : Prop :=
  ∃ t, ∀ p, w.onto p = p.put t

variable {v w : Writing} {ws : List Writing}

theorem puts_text (t : Text) : Puts t :=
  ⟨t, fun _ => rfl⟩

theorem puts_nothing : Puts nothing :=
  ⟨[], fun _ => rfl⟩

theorem Puts.append (hv : v.Puts) (hw : w.Puts) : (v ++ w).Puts := by
  obtain ⟨s, hs⟩ := hv
  obtain ⟨t, ht⟩ := hw
  refine ⟨s ++ t, fun p => ?_⟩
  change w.onto (v.onto p) = _
  rw [hs, ht, Page.put_put]

theorem puts_when (condition : Bool) (h : w.Puts) : (when condition w).Puts := by
  unfold when
  split
  · exact h
  · exact puts_nothing

theorem puts_word (applies : Bool) (t : Text) : (word applies t).Puts :=
  puts_when applies ((puts_text t).append (puts_text _))

theorem puts_preceded (front : Text) {w : Option Writing} (h : ∀ v ∈ w, v.Puts) :
    (preceded front w).Puts := by
  cases w with
  | none => exact puts_nothing
  | some v => exact (puts_text front).append (h v rfl)

theorem puts_joined {separator : Writing} (hseparator : separator.Puts)
    (h : ∀ w ∈ ws, w.Puts) : (joined separator ws).Puts := by
  induction ws with
  | nil => exact puts_nothing
  | cons w more ih =>
      obtain ⟨hw, hmore⟩ := List.forall_mem_cons.1 h
      cases more with
      | nil => exact hw
      | cons v more => exact (hw.append hseparator).append (ih hmore)

theorem puts_listed (h : ∀ w ∈ ws, w.Puts) : (listed ws).Puts :=
  puts_joined (puts_text _) h

end Writing

namespace Printer

open Writing

theorem puts_moduleBinding (b : ModuleBinding) : (moduleBinding b).Puts :=
  ((puts_word _ _).append (puts_text _)).append
    (puts_when _ ((puts_text " as ").append (puts_text _)))

theorem puts_moduleBindings (bs : List ModuleBinding) : (moduleBindings bs).Puts := by
  unfold moduleBindings
  split
  · exact puts_text _
  · have hbindings : (listed (bs.map moduleBinding)).Puts := by
      refine puts_listed fun w hw => ?_
      obtain ⟨b, -, rfl⟩ := List.mem_map.1 hw
      exact puts_moduleBinding b
    exact ((puts_text _).append hbindings).append (puts_text _)

theorem puts_moduleAttributes (attributes : ImportAttributes) :
    (moduleAttributes attributes).Puts := by
  refine ((puts_text attributes.word).append (puts_text _)).append ?_
  split
  · exact puts_text _
  · refine ((puts_text _).append (puts_listed fun w hw => ?_)).append (puts_text _)
    obtain ⟨a, -, rfl⟩ := List.mem_map.1 hw
    exact ((puts_text (moduleName a.key)).append (puts_text _)).append (puts_text (string a.value))

theorem puts_moduleSource (source : ModuleSource) : (moduleSource source).Puts := by
  refine (puts_text _).append (puts_preceded _ fun w hw => ?_)
  obtain ⟨attributes, -, rfl⟩ := Option.map_eq_some_iff.1 hw
  exact puts_moduleAttributes attributes

theorem puts_importClause (clause : ImportClause) : (importClause clause).Puts := by
  refine puts_listed fun w hw => ?_
  rcases List.mem_append.1 hw with hdefault | hother
  · obtain ⟨name, -, rfl⟩ := Option.map_eq_some_iff.1 (Option.mem_toList.1 hdefault)
    exact puts_text name.text
  · rw [Option.mem_toList] at hother
    split at hother
    · cases hother
      exact (puts_text _).append (puts_text _)
    · split at hother
      · cases hother
      · cases hother
        exact puts_moduleBindings _
    · cases hother

/-- An import is one text. -/
theorem puts_importDecl (decl : ImportDecl) : (importDecl decl).Puts := by
  unfold importDecl
  refine (((((puts_text _).append (puts_word _ _)).append (puts_text _)).append ?_).append
    (puts_moduleSource _)).append (puts_text _)
  split
  · exact (puts_importClause _).append (puts_text _)
  · exact puts_nothing

/-! ## Statements -/

structure AtMargin (p : Page) : Prop where
  depth : p.depth = 0
  joinsLine : p.joinsLine = false
  endsLine : EndsLine p.text

theorem atMargin_blank : AtMargin .blank :=
  ⟨rfl, rfl, .inl rfl⟩

theorem atMargin_put {p : Page} (h : AtMargin p) (t : Text) : AtMargin (p.put (t ++ ['\n'])) := by
  refine ⟨h.depth, h.joinsLine, ?_⟩
  rw [Page.text_put, ← List.append_assoc, endsLine_concat]

/-- At the margin nothing is written in front of a statement without comments. -/
theorem onto_lead {p : Page} (h : AtMargin p) {loc : Loc} (hcomments : loc.comments = []) :
    (lead loc).onto p = p := by
  have hawaits : p.awaitsComments loc = false := by
    simp [Page.awaitsComments, hcomments]
  change indentation.onto ((when (p.awaitsComments loc) _).onto p) = p
  rw [hawaits]
  change (if p.joinsLine then _ else p.put (List.replicate p.depth '\t')) = p
  rw [h.joinsLine, h.depth]
  rfl

variable {p : Page} {s : Stmt} {ss : List Stmt} {name : Text}

theorem atMargin_import (self : Printers) (hs : IsImport s) (h : AtMargin p) :
    AtMargin ((statement self .plain s).onto p) := by
  obtain @⟨loc, decl, hcomments⟩ := hs
  obtain ⟨t, ht⟩ := puts_importDecl decl
  have hrun : (statement self .plain (.importDecl loc decl)).onto p = p.put (t ++ ['\n']) := by
    change newline.onto ((importDecl decl).onto ((lead loc).onto p)) = _
    rw [onto_lead h hcomments, ht]
    exact Page.put_put p t _
  rw [hrun]
  exact atMargin_put h t

/-- The class begins its line with the same words, whatever its name and its members are. -/
theorem prefix_classExport (self : Printers) (hs : IsClassExport name s) (h : AtMargin p) :
    p.text ++ Render.classLead <+: ((statement self .plain s).onto p).text := by
  obtain @⟨loc, inner, nameLoc, members, hcomments⟩ := hs
  -- What is written behind the words matters only in that the words stay.
  obtain ⟨w, hw⟩ : ∃ w : Writing, (statement self .plain (.exportDefault loc
        (.classDecl inner (.mk [] false false (some ⟨nameLoc, name⟩) [] none [] [] members)))).onto
          p =
      w.onto (((((lead loc).onto p).put "export default ").put "class").put " ") :=
    ⟨name ++ (" " : Writing) ++ memberLines (classMember self .plain) members ++ newline, rfl⟩
  rw [hw, onto_lead h hcomments, Page.put_put, Page.put_put]
  have hprefix := w.prefix_text (p.put ("export default " ++ "class" ++ " "))
  rwa [Page.text_put] at hprefix

/-- Behind imports the page is at the margin, so the class begins its line. -/
theorem classLine_statements (self : Printers) (hss : ∀ x ∈ ss, IsImport x)
    (hs : IsClassExport name s) (h : AtMargin p) :
    ∃ before, EndsLine before ∧ before ++ Render.classLead <+:
      ((concat ((ss ++ [s]).map (statement self .plain))).onto p).text := by
  induction ss generalizing p with
  | nil => exact ⟨p.text, h.endsLine, prefix_classExport self hs h⟩
  | cons x more ih =>
      obtain ⟨hx, hmore⟩ := List.forall_mem_cons.1 hss
      exact ih hmore (atMargin_import self hx h)

theorem directivesAndStatements_script (self : Printers) (hss : ∀ x ∈ ss, IsImport x)
    (hs : IsClassExport name s) :
    directivesAndStatements self .plain [] (ss ++ [s]) = statements self .plain (ss ++ [s]) := by
  cases ss with
  | nil =>
      cases hs
      rfl
  | cons x more =>
      have hx := hss x List.mem_cons_self
      cases hx
      rfl

end Printer

open Printer Writing in
/-- The printed script of imports and a class has the line that exports the class. -/
theorem Program.exists_classLine {program : Program} {ss : List Stmt} {s : Stmt} {name : Text}
    (hdirectives : program.directives = []) (hbody : program.body = ss ++ [s])
    (hss : ∀ x ∈ ss, IsImport x) (hs : IsClassExport name s) :
    ∃ before after, LineBegins Render.classLead program.print before after := by
  obtain ⟨fuel, hfuel⟩ : ∃ fuel, 8 * program.length + 64 = fuel + 1 := ⟨_, rfl⟩
  have hscript := directivesAndStatements_script (printers (fuel + 1)) hss hs
  obtain ⟨page, hpage, hprint⟩ : ∃ page, AtMargin page ∧
      program.print = ((commentList program.closing).onto
        ((concat ((ss ++ [s]).map (statement (printers fuel) .plain))).onto page)).text := by
    cases hhashbang : program.hashbang with
    | none =>
        refine ⟨_, atMargin_blank, ?_⟩
        simp only [Program.print, hfuel, hdirectives, hbody, hscript, hhashbang]
        rfl
    | some line =>
        refine ⟨_, atMargin_put atMargin_blank line, ?_⟩
        simp only [Program.print, hfuel, hdirectives, hbody, hscript, hhashbang,
          ← Page.put_put]
        rfl
  obtain ⟨before, hends, hprefix⟩ := classLine_statements (printers fuel) hss hs hpage
  have hwhole := hprefix.trans ((commentList program.closing).prefix_text _)
  rw [← hprint] at hwhole
  obtain ⟨after, hafter⟩ := hwhole
  exact ⟨before, Render.classLead ++ after, by rw [← hafter, List.append_assoc], hends,
    List.prefix_append _ _⟩

end Syntax

end NgFile
