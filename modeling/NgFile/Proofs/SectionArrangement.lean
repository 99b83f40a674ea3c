import NgFile.Compile
import NgFile.Proofs.TagSearch

/-!
# Arrangements of sections

A file is laid out as blocks between tags, in some order, with text around them.  As long
as a block is not closed within and no other text opens a block of its kind, its section is
what it holds, wherever it stands and however its tags are cased.
-/

namespace NgFile

namespace Sections

inductive BlockKind
  | script
  | template
  | style
  deriving DecidableEq

namespace BlockKind

def tags : BlockKind → TagPair
  | script => scriptTags
  | template => templateTags
  | style => styleTags

instance (p : BlockKind → Prop) [DecidablePred p] : Decidable (∀ kind, p kind) :=
  decidable_of_iff (p script ∧ p template ∧ p style)
    ⟨fun h kind => by cases kind <;> simp_all, fun h => ⟨h _, h _, h _⟩⟩

theorem bracketed_opening (kind : BlockKind) : Bracketed kind.tags.opening := by
  cases kind with
  | script => exact ⟨"script lang=\x22ts\x22", rfl, by decide, by decide⟩
  | template => exact ⟨"template", rfl, by decide, by decide⟩
  | style => exact ⟨"style", rfl, by decide, by decide⟩

theorem bracketed_closing (kind : BlockKind) : Bracketed kind.tags.closing := by
  cases kind with
  | script => exact ⟨"/script", rfl, by decide, by decide⟩
  | template => exact ⟨"/template", rfl, by decide, by decide⟩
  | style => exact ⟨"/style", rfl, by decide, by decide⟩

/-- The tags can be told apart by their lengths. -/
theorem length_opening_ne (kind other : BlockKind) :
    (kind ≠ other → kind.tags.opening.length ≠ other.tags.opening.length) ∧
      kind.tags.opening.length ≠ other.tags.closing.length := by
  revert kind other
  decide

end BlockKind

/-- A block with its tags as they are written, and the text between it and the next one. -/
structure Block where
  kind : BlockKind
  opening : Text
  inner : Text
  closing : Text
  after : Text
  opening_reads : ReadsTag kind.tags.opening opening
  closing_reads : ReadsTag kind.tags.closing closing

namespace Block

def cased (kind : BlockKind) (opening inner closing after : Text)
    (hopening : opening.map Char.toLower = kind.tags.opening)
    (hclosing : closing.map Char.toLower = kind.tags.closing) : Block :=
  ⟨kind, opening, inner, closing, after, readsTag_of_toLower hopening,
    readsTag_of_toLower hclosing⟩

def text (b : Block) : Text :=
  b.opening ++ (b.inner ++ (b.closing ++ b.after))

theorem bracketed_opening (b : Block) : Bracketed b.opening :=
  b.opening_reads.bracketed b.kind.bracketed_opening

theorem bracketed_closing (b : Block) : Bracketed b.closing :=
  b.closing_reads.bracketed b.kind.bracketed_closing

end Block

/-- A file as blocks with text around them; of several blocks of a kind the first counts. -/
structure Arrangement where
  before : Text
  blocks : List Block

namespace Arrangement

def text (a : Arrangement) : Text :=
  a.before ++ a.blocks.flatMap Block.text

/-- What the block of a kind holds; an absent block is empty. -/
def inner (a : Arrangement) (kind : BlockKind) : Text :=
  ((a.blocks.find? fun b => b.kind = kind).map Block.inner).getD []

/-- No block is closed within, and no text outside the blocks of a kind opens one. -/
structure Legible (a : Arrangement) : Prop where
  closed : ∀ b ∈ a.blocks, ¬ Occurs b.kind.tags.closing b.inner
  before : ∀ kind : BlockKind, ¬ Occurs kind.tags.opening a.before
  after : ∀ b ∈ a.blocks, ∀ kind : BlockKind, ¬ Occurs kind.tags.opening b.after
  inner : ∀ b ∈ a.blocks, ∀ kind : BlockKind, kind ≠ b.kind →
    ¬ Occurs kind.tags.opening b.inner

end Arrangement

/-! ## Where an opening tag can stand -/

theorem length_eq_of_occurs {tag t : Text} (htag : Bracketed tag) (ht : Bracketed t)
    (h : Occurs tag t) : tag.length = t.length := by
  obtain ⟨found, ⟨x, y, rfl⟩, hfound⟩ := h
  have hbracketed := hfound.bracketed htag
  have hne : found ≠ [] := by
    rintro rfl
    cases hbracketed.head?_eq
  -- A bracket in front of the piece or behind it would be a third one.
  have hx : x = [] := by
    by_contra hxne
    rw [List.append_assoc] at ht
    exact ht.not_apart hxne (by simp [hne]) (hbracketed.apart_right x y)
  subst hx
  rw [List.nil_append] at ht ⊢
  have hy : y = [] := by
    by_contra hyne
    exact ht.not_apart hne hyne (hbracketed.apart_left y)
  rw [hy, List.append_nil]
  exact hfound.length_eq

section Opening

variable {kind : BlockKind} {b : Block}

theorem not_occurs_opening (hkind : kind ≠ b.kind) : ¬ Occurs kind.tags.opening b.opening := by
  intro h
  have hlength := length_eq_of_occurs kind.bracketed_opening b.bracketed_opening h
  rw [← b.opening_reads.length_eq] at hlength
  exact (kind.length_opening_ne b.kind).1 hkind hlength

theorem not_occurs_closing (kind : BlockKind) (b : Block) :
    ¬ Occurs kind.tags.opening b.closing := by
  intro h
  have hlength := length_eq_of_occurs kind.bracketed_opening b.bracketed_closing h
  rw [← b.closing_reads.length_eq] at hlength
  exact (kind.length_opening_ne b.kind).2 hlength

/-- Blocks of other kinds and the text around them do not open a block of a kind. -/
theorem not_occurs_blocks {blocks : List Block} (hkinds : ∀ b ∈ blocks, kind ≠ b.kind)
    (hinner : ∀ b ∈ blocks, ¬ Occurs kind.tags.opening b.inner)
    (hafter : ∀ b ∈ blocks, ¬ Occurs kind.tags.opening b.after) {before : Text}
    (hbefore : ¬ Occurs kind.tags.opening before) :
    ¬ Occurs kind.tags.opening (before ++ blocks.flatMap Block.text) := by
  induction blocks generalizing before with
  | nil => simpa using hbefore
  | cons b rest ih =>
      have htag := kind.bracketed_opening
      obtain ⟨hkind, hkinds⟩ := List.forall_mem_cons.1 hkinds
      obtain ⟨hheld, hinner⟩ := List.forall_mem_cons.1 hinner
      obtain ⟨hbehind, hafter⟩ := List.forall_mem_cons.1 hafter
      have hrest := ih hkinds hinner hafter hbehind
      simp only [List.flatMap_cons, Block.text, List.append_assoc]
      rw [occurs_append_iff htag (b.bracketed_opening.apart_right before _),
        occurs_append_iff htag (b.bracketed_opening.apart_left _),
        occurs_append_iff htag (b.bracketed_closing.apart_right b.inner _),
        occurs_append_iff htag (b.bracketed_closing.apart_left _)]
      rintro (h | h | h | h | h)
      · exact hbefore h
      · exact not_occurs_opening hkind h
      · exact hheld h
      · exact not_occurs_closing kind b h
      · exact hrest h

end Opening

/-- The section of a kind is what the first block of the kind holds. -/
theorem firstBlock_text {a : Arrangement} (h : a.Legible) (kind : BlockKind) :
    firstBlock kind.tags a.text = Text.trim (a.inner kind) := by
  cases hfind : a.blocks.find? (fun b => b.kind = kind) with
  | none =>
      have hkinds : ∀ b ∈ a.blocks, kind ≠ b.kind := by
        intro b hb heq
        exact List.find?_eq_none.1 hfind b hb (by simp [heq])
      have hnone : ¬ Occurs kind.tags.opening a.text :=
        not_occurs_blocks hkinds (fun b hb => h.inner b hb kind (hkinds b hb))
          (fun b hb => h.after b hb kind) (h.before kind)
      rw [firstBlock, innerText?_eq_none hnone, Arrangement.inner, hfind]
      rfl
  | some b =>
      obtain ⟨hkind, front, rest, hblocks, hfront⟩ := List.find?_eq_some_iff_append.1 hfind
      obtain rfl : b.kind = kind := of_decide_eq_true hkind
      have hmem : ∀ d ∈ front, d ∈ a.blocks := by
        intro d hd
        rw [hblocks]
        exact List.mem_append_left _ hd
      have hb : b ∈ a.blocks := by simp [hblocks]
      have hkinds : ∀ d ∈ front, b.kind ≠ d.kind := by
        intro d hd heq
        have := hfront d hd
        simp [heq] at this
      have hbefore : ¬ Occurs b.kind.tags.opening (a.before ++ front.flatMap Block.text) :=
        not_occurs_blocks hkinds (fun d hd => h.inner d (hmem d hd) b.kind (hkinds d hd))
          (fun d hd => h.after d (hmem d hd) b.kind) (h.before b.kind)
      have htext : a.text = (a.before ++ front.flatMap Block.text) ++
          (b.opening ++ (b.inner ++ (b.closing ++ (b.after ++ rest.flatMap Block.text)))) := by
        simp only [Arrangement.text, hblocks, List.flatMap_append, List.flatMap_cons, Block.text,
          List.append_assoc]
      have hinner : innerText? b.kind.tags a.text = some b.inner := by
        rw [htext]
        exact innerText?_append b.kind.bracketed_opening b.kind.bracketed_closing hbefore
          (h.closed b hb) b.opening_reads b.closing_reads
      rw [firstBlock, hinner, Arrangement.inner, hfind]
      rfl

/-- The sections of a legible file, or the error that it has neither script nor template. -/
theorem extract_text {a : Arrangement} (h : a.Legible) (file : Text) :
    extract ⟨file, a.text⟩ =
      if Text.trim (a.inner .script) = [] ∧ Text.trim (a.inner .template) = [] then
        .error (.missingSections file)
      else
        .ok ⟨Text.trim (a.inner .script), Text.trim (a.inner .template),
          Text.trim (a.inner .style)⟩ := by
  have hscript : firstBlock scriptTags a.text = Text.trim (a.inner .script) :=
    firstBlock_text h .script
  have htemplate : firstBlock templateTags a.text = Text.trim (a.inner .template) :=
    firstBlock_text h .template
  have hstyle : firstBlock styleTags a.text = Text.trim (a.inner .style) :=
    firstBlock_text h .style
  simp only [extract, ofContent, hscript, htemplate, hstyle, Bool.and_eq_true, List.isEmpty_iff]

end Sections

theorem compile_of_extract_eq {file content content' : Text}
    (h : Sections.extract ⟨file, content⟩ = Sections.extract ⟨file, content'⟩)
    (options : CompileOptions) :
    compile ⟨file, content⟩ options = compile ⟨file, content'⟩ options := by
  simp only [compile, targetOf, h]

namespace Sections

namespace Arrangement

def scattered : Arrangement where
  before := "</STYLE> <script>"
  blocks :=
    [.cased .template "<Template>" " <p></script></p> " "</TEMPLATE>" "\n<\n" (by decide)
        (by decide),
      .cased .script "<SCRIPT lang=\x22TS\x22>" "let x = '</template>'" "</script>" [] (by decide)
        (by decide)]

def compact : Arrangement where
  before := []
  blocks :=
    [.cased .script "<script lang=\x22ts\x22>" "let x = '</template>'" "</script>" [] (by decide)
        (by decide),
      .cased .style "<style>" [] "</style>" [] (by decide) (by decide),
      .cased .template "<template>" " <p></script></p> " "</template>" [] (by decide) (by decide)]

theorem legible_scattered : scattered.Legible :=
  ⟨by decide, by decide, by decide, by decide⟩

theorem legible_compact : compact.Legible :=
  ⟨by decide, by decide, by decide, by decide⟩

end Arrangement

/--
The sections of a file depend on what its blocks hold alone, and so does the result of
compiling it: not on their order, on the casing of their tags or on the text around them.
-/
theorem extract_arrangement (file : Text) (a : Arrangement) (h : a.Legible) :
    extract ⟨file, a.text⟩ =
        (if Text.trim (a.inner .script) = [] ∧ Text.trim (a.inner .template) = [] then
          .error (.missingSections file)
        else
          .ok ⟨Text.trim (a.inner .script), Text.trim (a.inner .template),
            Text.trim (a.inner .style)⟩) ∧
      ∀ b : Arrangement, b.Legible → (∀ kind, b.inner kind = a.inner kind) →
        ∀ options, compile ⟨file, b.text⟩ options = compile ⟨file, a.text⟩ options := by
  refine ⟨extract_text h file, fun b hb hinner options => ?_⟩
  have hsame : extract ⟨file, b.text⟩ = extract ⟨file, a.text⟩ := by
    rw [extract_text h, extract_text hb, hinner, hinner, hinner]
  exact compile_of_extract_eq hsame options

/-- Two arrangements of one script and one template compile to the same. -/
theorem extract_arrangement_scattered :
    Arrangement.scattered.Legible ∧ Arrangement.compact.Legible ∧
      (∀ kind, Arrangement.compact.inner kind = Arrangement.scattered.inner kind) ∧
      extract ⟨"card.ng", Arrangement.scattered.text⟩ =
        .ok ⟨"let x = '</template>'", "<p></script></p>", []⟩ ∧
      ∀ options, compile ⟨"card.ng", Arrangement.compact.text⟩ options =
        compile ⟨"card.ng", Arrangement.scattered.text⟩ options := by
  have hscattered := Arrangement.legible_scattered
  have hcompact := Arrangement.legible_compact
  have hinner : ∀ kind, Arrangement.compact.inner kind = Arrangement.scattered.inner kind := by
    decide
  obtain ⟨hextract, hcompile⟩ :=
    extract_arrangement "card.ng" Arrangement.scattered hscattered
  refine ⟨hscattered, hcompact, hinner, ?_, hcompile Arrangement.compact hcompact hinner⟩
  rw [hextract]
  decide

end Sections

end NgFile
