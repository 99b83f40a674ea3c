import NgFile.Proofs.SectionArrangement

/-!
# Where sections stand

Each kind of block is searched over the whole content, so the blocks of two kinds need not
stand apart.  But tags never overlap, so two blocks can share text in one way only: the
opening tag of one of them stands within the inner text of the other.
-/

namespace NgFile

namespace Sections

structure Extent where
  start : Nat
  innerStart : Nat
  innerStop : Nat
  stop : Nat
  deriving DecidableEq

namespace Extent

def Disjoint (x y : Extent) : Prop :=
  x.stop ≤ y.start ∨ y.stop ≤ x.start

/-- The opening tag of a block stands within the inner text of another one. -/
def OpensWithin (x y : Extent) : Prop :=
  y.innerStart ≤ x.start ∧ x.innerStart ≤ y.innerStop

instance (x y : Extent) : Decidable (x.Disjoint y) :=
  inferInstanceAs (Decidable (_ ∨ _))

instance (x y : Extent) : Decidable (x.OpensWithin y) :=
  inferInstanceAs (Decidable (_ ∧ _))

end Extent

/-- Where the block of a kind stands whose inner text is the section of that kind. -/
def BlockKind.extent? (kind : BlockKind) (content : Text) : Option Extent :=
  (beforeFirst? kind.tags.opening content).bind fun before =>
    (innerText? kind.tags content).map fun inner =>
      let innerStart := before.length + kind.tags.opening.length
      let innerStop := innerStart + inner.length
      ⟨before.length, innerStart, innerStop, innerStop + kind.tags.closing.length⟩

/-! ## Tags at their positions -/

def TagAt (tag t : Text) (n : Nat) : Prop :=
  ∃ before found after, t = before ++ (found ++ after) ∧ ReadsTag tag found ∧ before.length = n

theorem Bracketed.getElem?_eq_open_iff {t : Text} (h : Bracketed t) (i : Nat) :
    t[i]? = some '<' ↔ i = 0 := by
  obtain ⟨body, rfl, hopen, _⟩ := h
  cases i with
  | zero => simp
  | succ i =>
      have hne : (body ++ ['>'])[i]? ≠ some '<' := by
        intro hi
        have hmem : '<' ∈ body ++ ['>'] := List.mem_of_getElem? hi
        simp [hopen] at hmem
      simpa using hne

theorem Bracketed.getElem?_eq_close_iff {t : Text} (h : Bracketed t) (i : Nat) :
    t[i]? = some '>' ↔ i + 1 = t.length := by
  obtain ⟨body, rfl, _, hclose⟩ := h
  rw [← List.cons_append]
  have hfront : ∀ j : Nat, ('<' :: body)[j]? ≠ some '>' := by
    intro j hj
    have hmem : '>' ∈ '<' :: body := List.mem_of_getElem? hj
    simp [hclose] at hmem
  rw [List.getElem?_append]
  split
  · rename_i hlt
    have hlength : i + 1 ≠ ('<' :: body ++ ['>']).length := by
      simp only [List.length_append, List.length_singleton]
      omega
    exact ⟨fun hi => absurd hi (hfront i), fun hi => absurd hi hlength⟩
  · rename_i hge
    rw [List.getElem?_singleton, List.length_append, List.length_singleton]
    split
    · simp only [true_iff]
      omega
    · simp only [reduceCtorEq, false_iff]
      omega

section Tags

variable {tag tag' t : Text} {n m : Nat}

/-- Within a tag, brackets stand at its two ends only. -/
theorem TagAt.brackets (h : TagAt tag t n) (htag : Bracketed tag) {i : Nat} (hi : i < tag.length) :
    (t[n + i]? = some '<' ↔ i = 0) ∧ (t[n + i]? = some '>' ↔ i + 1 = tag.length) := by
  obtain ⟨before, found, after, rfl, hfound, rfl⟩ := h
  have hbracketed := hfound.bracketed htag
  rw [hfound.length_eq] at hi ⊢
  have hhere : (before ++ (found ++ after))[before.length + i]? = found[i]? := by
    rw [List.getElem?_append_right (Nat.le_add_right _ _), Nat.add_sub_cancel_left,
      List.getElem?_append_left hi]
  rw [hhere]
  exact ⟨hbracketed.getElem?_eq_open_iff i, hbracketed.getElem?_eq_close_iff i⟩

theorem Bracketed.one_lt_length (h : Bracketed tag) : 1 < tag.length := by
  obtain ⟨body, rfl, _⟩ := h
  simp

/-- A tag that begins at or before another tag ends before it begins. -/
theorem TagAt.apart_of_le (h : TagAt tag t n) (h' : TagAt tag' t m) (htag : Bracketed tag)
    (htag' : Bracketed tag') (hlength : tag.length ≠ tag'.length) (hle : n ≤ m) :
    n + tag.length ≤ m := by
  by_contra hover
  have hlong := htag.one_lt_length
  have hlong' := htag'.one_lt_length
  obtain ⟨i, rfl⟩ := Nat.exists_eq_add_of_le hle
  -- The bracket that opens the second tag is that of the first one, so both begin together.
  have hopen : t[n + i + 0]? = some '<' := (h'.brackets htag' (by omega)).1.2 rfl
  obtain rfl : i = 0 := (h.brackets htag (by omega)).1.1 hopen
  -- The bracket that closes the shorter one closes the longer one, too.
  rcases Nat.lt_or_gt_of_ne hlength with hshort | hshort
  · have hclose : t[n + (tag.length - 1)]? = some '>' := (h.brackets htag (by omega)).2.2 (by omega)
    have hend := (h'.brackets htag' (show tag.length - 1 < tag'.length by omega)).2.1 hclose
    omega
  · have hclose : t[n + 0 + (tag'.length - 1)]? = some '>' :=
      (h'.brackets htag' (by omega)).2.2 (by omega)
    have hend := (h.brackets htag (show tag'.length - 1 < tag.length by omega)).2.1 hclose
    omega

theorem TagAt.apart (h : TagAt tag t n) (h' : TagAt tag' t m) (htag : Bracketed tag)
    (htag' : Bracketed tag') (hlength : tag.length ≠ tag'.length) :
    n + tag.length ≤ m ∨ m + tag'.length ≤ n := by
  rcases Nat.le_total n m with hle | hle
  · exact .inl (h.apart_of_le h' htag htag' hlength hle)
  · exact .inr (h'.apart_of_le h htag' htag hlength.symm hle)

/-- A tag that stands within a piece of a text occurs in that piece. -/
theorem TagAt.occurs {before piece after : Text} (h : TagAt tag (before ++ (piece ++ after)) n)
    (hstart : before.length ≤ n) (hstop : n + tag.length ≤ before.length + piece.length) :
    Occurs tag piece := by
  obtain ⟨front, found, rest, heq, hfound, rfl⟩ := h
  rw [hfound.length_eq] at hstop
  have hfront : before <+: front :=
    List.prefix_of_prefix_length_le (List.prefix_append _ _) ⟨_, heq.symm⟩ hstart
  obtain ⟨gap, rfl⟩ := hfront
  rw [List.append_assoc] at heq
  have hpiece : piece ++ after = (gap ++ found) ++ rest := by
    rw [List.append_assoc]
    exact List.append_cancel_left heq
  have hwithin : gap ++ found <+: piece := by
    refine List.prefix_of_prefix_length_le ⟨rest, hpiece.symm⟩ (List.prefix_append _ _) ?_
    simp only [List.length_append] at hstop ⊢
    omega
  exact ⟨found, (List.suffix_append gap found).isInfix.trans hwithin.isInfix, hfound⟩

end Tags

/-! ## The parts of a block -/

theorem exists_of_afterFirst? {tag t rest : Text} (h : afterFirst? tag t = some rest) :
    ∃ before found, beforeFirst? tag t = some before ∧ ReadsTag tag found ∧
      t = before ++ (found ++ rest) := by
  induction t with
  | nil =>
      have hhere : afterTag? tag [] = some rest := h
      obtain ⟨found, hfound, heq⟩ := afterTag?_eq_some_iff.1 hhere
      exact ⟨[], found, by simp [beforeFirst?, hhere], hfound, heq⟩
  | cons c t ih =>
      rw [afterFirst?_cons] at h
      cases hhere : afterTag? tag (c :: t) with
      | some after =>
          rw [hhere] at h
          cases h
          obtain ⟨found, hfound, heq⟩ := afterTag?_eq_some_iff.1 hhere
          exact ⟨[], found, by simp [beforeFirst?_cons, hhere], hfound, heq⟩
      | none =>
          rw [hhere] at h
          obtain ⟨before, found, hbefore, hfound, rfl⟩ := ih h
          exact ⟨c :: before, found, by simp [beforeFirst?_cons, hhere, hbefore], hfound, rfl⟩

theorem isSome_beforeFirst? (tag t : Text) :
    (beforeFirst? tag t).isSome = (afterFirst? tag t).isSome := by
  induction t with
  | nil => simp [beforeFirst?, afterFirst?]
  | cons c t ih =>
      rw [beforeFirst?_cons, afterFirst?_cons]
      cases afterTag? tag (c :: t) with
      | some rest => rfl
      | none => simpa using ih

theorem exists_of_beforeFirst? {tag t before : Text} (h : beforeFirst? tag t = some before) :
    ∃ found rest, ReadsTag tag found ∧ t = before ++ (found ++ rest) := by
  have hsome : (afterFirst? tag t).isSome := by rw [← isSome_beforeFirst?, h]; rfl
  obtain ⟨rest, hrest⟩ := Option.isSome_iff_exists.1 hsome
  obtain ⟨before', found, hbefore, hfound, heq⟩ := exists_of_afterFirst? hrest
  obtain rfl : before' = before := Option.some.inj (hbefore.symm.trans h)
  exact ⟨found, rest, hfound, heq⟩

section Blocks

variable {kind other : BlockKind} {content inner : Text} {x y : Extent}

/-- A block is a part of the content: an opening tag, an inner text and a closing tag. -/
theorem exists_of_innerText? (h : innerText? kind.tags content = some inner) :
    ∃ before opening closing after,
      content = before ++ (opening ++ (inner ++ (closing ++ after))) ∧
      ReadsTag kind.tags.opening opening ∧ ReadsTag kind.tags.closing closing ∧
      kind.extent? content =
        some ⟨before.length, before.length + opening.length,
          before.length + opening.length + inner.length,
          before.length + opening.length + inner.length + closing.length⟩ := by
  have hinner := h
  rw [innerText?] at h
  obtain ⟨rest, hrest, hclosing⟩ := Option.bind_eq_some_iff.1 h
  obtain ⟨before, opening, hbefore, hopens, rfl⟩ := exists_of_afterFirst? hrest
  obtain ⟨closing, after, hcloses, rfl⟩ := exists_of_beforeFirst? hclosing
  refine ⟨before, opening, closing, after, rfl, hopens, hcloses, ?_⟩
  rw [BlockKind.extent?, hbefore, hinner, hopens.length_eq, hcloses.length_eq]
  rfl

/-- An extent delimits a block of a content: between its tags stands what the section holds. -/
structure Extent.Delimits (x : Extent) (kind : BlockKind) (content : Text) : Prop where
  opening : TagAt kind.tags.opening content x.start
  closing : TagAt kind.tags.closing content x.innerStop
  innerStart : x.innerStart = x.start + kind.tags.opening.length
  le : x.innerStart ≤ x.innerStop
  stop : x.stop = x.innerStop + kind.tags.closing.length
  inner : innerText? kind.tags content = some (Text.slice content x.innerStart x.innerStop)

theorem delimits_of_extent? (h : kind.extent? content = some x) : x.Delimits kind content := by
  obtain ⟨_, _, hx⟩ := Option.bind_eq_some_iff.1 h
  obtain ⟨inner, hinner, _⟩ := Option.map_eq_some_iff.1 hx
  obtain ⟨before, opening, closing, after, hcontent, hopens, hcloses, hextent⟩ :=
    exists_of_innerText? hinner
  obtain rfl := Option.some.inj (h.symm.trans hextent)
  refine ⟨⟨before, opening, _, hcontent, hopens, rfl⟩,
    ⟨before ++ (opening ++ inner), closing, after, ?_, hcloses, ?_⟩, ?_, ?_, ?_, ?_⟩
  · simp only [hcontent, List.append_assoc]
  · simp only [List.length_append, Nat.add_assoc]
  · simp only [hopens.length_eq]
  · simp only [Nat.le_add_right]
  · simp only [hcloses.length_eq]
  · have hslice := Text.slice_append_middle (before ++ opening) inner (closing ++ after)
    rw [List.append_assoc, ← hcontent, List.length_append] at hslice
    rw [hinner, hslice]

/-- The section of a kind is the inner text of the block that stands there. -/
theorem firstBlock_eq_slice (kind : BlockKind) (content : Text) :
    firstBlock kind.tags content =
      match kind.extent? content with
      | some x => Text.trim (Text.slice content x.innerStart x.innerStop)
      | none => [] := by
  cases hinner : innerText? kind.tags content with
  | none =>
      have hnone : kind.extent? content = none := by
        simp [BlockKind.extent?, hinner]
      rw [firstBlock, hinner, hnone]
  | some inner =>
      obtain ⟨_, _, _, _, _, _, _, hextent⟩ := exists_of_innerText? hinner
      have hslice := (delimits_of_extent? hextent).inner
      rw [firstBlock, hslice, hextent]

/-! ## Two blocks -/

theorem length_tags_ne (hne : kind ≠ other) :
    kind.tags.opening.length ≠ other.tags.opening.length ∧
      kind.tags.opening.length ≠ other.tags.closing.length ∧
      kind.tags.closing.length ≠ other.tags.opening.length ∧
      kind.tags.closing.length ≠ other.tags.closing.length := by
  revert kind other
  decide

/-- Two blocks of different kinds stand apart unless one of them opens within the other. -/
theorem disjoint_iff_of_delimits (hx : x.Delimits kind content) (hy : y.Delimits other content)
    (hne : kind ≠ other) : x.Disjoint y ↔ ¬ x.OpensWithin y ∧ ¬ y.OpensWithin x := by
  obtain ⟨hopenings, hleft, hright, _⟩ := length_tags_ne hne
  have hopen := kind.bracketed_opening
  have hopen' := other.bracketed_opening
  -- No two of the tags overlap, so each opening tag is in front of the other block's inner
  -- text, within it, or behind the block.
  have hfirst := hx.opening.apart hy.opening hopen hopen' hopenings
  have hsecond := hx.opening.apart hy.closing hopen other.bracketed_closing hleft
  have hthird := hx.closing.apart hy.opening kind.bracketed_closing hopen' hright
  have hlong := hopen.one_lt_length
  have hlong' := hopen'.one_lt_length
  have hxs := hx.innerStart
  have hys := hy.innerStart
  have hxe := hx.stop
  have hye := hy.stop
  have hxle := hx.le
  have hyle := hy.le
  simp only [Extent.Disjoint, Extent.OpensWithin]
  omega

theorem eq_take_append_slice (t : Text) {start stop : Nat} (h : start ≤ stop) :
    t = t.take start ++ (Text.slice t start stop ++ t.drop stop) := by
  have hrest : t.drop stop = (t.drop start).drop (stop - start) := by
    rw [List.drop_drop, Nat.add_sub_cancel' h]
  rw [hrest, Text.slice, List.take_append_drop, List.take_append_drop]

/-- The tag of a block that opens within another one occurs in the inner text of that one. -/
theorem occurs_of_opensWithin (hx : x.Delimits kind content) (hy : y.Delimits other content)
    (h : x.OpensWithin y) :
    Occurs kind.tags.opening (Text.slice content y.innerStart y.innerStop) := by
  have hopening := hx.opening
  have hlength : y.innerStop ≤ content.length := by
    obtain ⟨before, found, after, hclosing, _, hplace⟩ := hy.closing
    rw [hclosing, ← hplace, List.length_append]
    exact Nat.le_add_right _ _
  have hfits := h.2
  rw [hx.innerStart] at hfits
  rw [eq_take_append_slice content hy.le] at hopening
  refine hopening.occurs ?_ ?_
  · rw [List.length_take]
    exact Nat.le_trans (Nat.min_le_left _ _) h.1
  · have hle := hy.le
    simp only [Text.slice, List.length_take, List.length_drop]
    omega

end Blocks

/--
The sections of a content are the inner texts of blocks that stand in it.  Two of these blocks
share text exactly if the opening tag of one stands within the inner text of the other, so they
stand apart if neither holds an opening tag of the other's kind.
-/
theorem disjoint_blocks_iff (content : Text) :
    (∀ (kind : BlockKind) (x : Extent), kind.extent? content = some x →
      x.Delimits kind content ∧
        firstBlock kind.tags content =
          Text.trim (Text.slice content x.innerStart x.innerStop)) ∧
    (∀ kind : BlockKind, kind.extent? content = none → firstBlock kind.tags content = []) ∧
    ∀ (kind other : BlockKind) (x y : Extent), kind ≠ other →
      kind.extent? content = some x → other.extent? content = some y →
      (x.Disjoint y ↔ ¬ x.OpensWithin y ∧ ¬ y.OpensWithin x) ∧
      (¬ Occurs kind.tags.opening (Text.slice content y.innerStart y.innerStop) →
        ¬ Occurs other.tags.opening (Text.slice content x.innerStart x.innerStop) →
        x.Disjoint y) := by
  refine ⟨fun kind x hx => ⟨delimits_of_extent? hx, ?_⟩, fun kind hnone => ?_,
    fun kind other x y hne hx hy => ?_⟩
  · rw [firstBlock_eq_slice, hx]
  · rw [firstBlock_eq_slice, hnone]
  · have hx := delimits_of_extent? hx
    have hy := delimits_of_extent? hy
    have hiff := disjoint_iff_of_delimits hx hy hne
    refine ⟨hiff, fun hheld hheld' => hiff.2 ⟨fun hwithin => ?_, fun hwithin => ?_⟩⟩
    · exact hheld (occurs_of_opensWithin hx hy hwithin)
    · exact hheld' (occurs_of_opensWithin hy hx hwithin)

/-- A script and a template one after the other stand apart. -/
theorem disjoint_blocks_card :
    let content : Text := "<script lang=\x22ts\x22>let x = 1</script> <template>x</template>"
    BlockKind.script.extent? content = some ⟨0, 18, 27, 36⟩ ∧
      BlockKind.template.extent? content = some ⟨37, 47, 48, 59⟩ ∧
      Extent.Disjoint ⟨0, 18, 27, 36⟩ ⟨37, 47, 48, 59⟩ := by
  intro content
  have hscript : BlockKind.script.extent? content = some ⟨0, 18, 27, 36⟩ := by decide
  have htemplate : BlockKind.template.extent? content = some ⟨37, 47, 48, 59⟩ := by decide
  obtain ⟨_, _, hpair⟩ := disjoint_blocks_iff content
  refine ⟨hscript, htemplate, ?_⟩
  exact (hpair .script .template _ _ (by decide) hscript htemplate).2 (by decide) (by decide)

/-- The template that a string of the script mentions is taken for the template of the file. -/
theorem overlap_of_quoted_template :
    let content : Text :=
      "<script lang=\x22ts\x22>const s = '<template>x</template>';</script>"
    BlockKind.script.extent? content = some ⟨0, 18, 53, 62⟩ ∧
      BlockKind.template.extent? content = some ⟨29, 39, 40, 51⟩ ∧
      ¬ Extent.Disjoint ⟨0, 18, 53, 62⟩ ⟨29, 39, 40, 51⟩ ∧
      extract ⟨"card.ng", content⟩ =
        .ok ⟨"const s = '<template>x</template>';", "x", []⟩ := by
  decide

end Sections

end NgFile
