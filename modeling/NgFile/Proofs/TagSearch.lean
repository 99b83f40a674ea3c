import Mathlib.Data.List.Forall2
import NgFile.Sections

/-!
# Searching for tags

Where a tag stands is a matter of the text alone: a piece of it reads as the tag.  The
searches for what precedes and what follows the first such piece are described in these
terms.  A tag has its only angle brackets at its ends, so that no piece reads as a tag
across a place where one tag ends or another begins.
-/

namespace NgFile

namespace Sections

def ReadsTag (tag t : Text) : Prop :=
  List.Forall₂ (fun p c => readsAs p c = true) tag t

def Occurs (tag t : Text) : Prop :=
  ∃ found, found <:+: t ∧ ReadsTag tag found

/-- Every upper or lower casing of a tag reads as the tag. -/
theorem readsTag_of_toLower {tag t : Text} (h : t.map Char.toLower = tag) : ReadsTag tag t := by
  subst h
  induction t with
  | nil => exact .nil
  | cons c t ih =>
      have hc : readsAs c.toLower c = true := by simp [readsAs]
      exact .cons hc ih

/-! ## The searches -/

theorem afterTag?_eq_some_iff {tag t rest : Text} :
    afterTag? tag t = some rest ↔ ∃ found, ReadsTag tag found ∧ t = found ++ rest := by
  induction tag generalizing t with
  | nil =>
      constructor
      · intro h
        exact ⟨[], .nil, Option.some.inj h⟩
      · rintro ⟨found, hfound, rfl⟩
        cases hfound
        rfl
  | cons p tag ih =>
      cases t with
      | nil =>
          constructor
          · intro h
            cases h
          · rintro ⟨found, hfound, heq⟩
            cases hfound
            cases heq
      | cons c t =>
          unfold afterTag?
          split
          · rename_i hc
            rw [ih]
            constructor
            · rintro ⟨found, hfound, rfl⟩
              exact ⟨c :: found, .cons hc hfound, rfl⟩
            · rintro ⟨found, hfound, heq⟩
              cases hfound with
              | cons _ hfound =>
                  cases heq
                  exact ⟨_, hfound, rfl⟩
          · rename_i hc
            constructor
            · intro h
              cases h
            · rintro ⟨found, hfound, heq⟩
              cases hfound with
              | cons hp _ =>
                  cases heq
                  exact absurd hp hc

theorem occurs_cons_iff {tag t : Text} {c : Char} :
    Occurs tag (c :: t) ↔ (∃ rest, afterTag? tag (c :: t) = some rest) ∨ Occurs tag t := by
  constructor
  · rintro ⟨found, hinfix, hfound⟩
    rcases List.infix_cons_iff.1 hinfix with ⟨rest, hrest⟩ | hinfix
    · exact .inl ⟨rest, afterTag?_eq_some_iff.2 ⟨found, hfound, hrest.symm⟩⟩
    · exact .inr ⟨found, hinfix, hfound⟩
  · rintro (⟨rest, hrest⟩ | ⟨found, hinfix, hfound⟩)
    · obtain ⟨found, hfound, heq⟩ := afterTag?_eq_some_iff.1 hrest
      exact ⟨found, ⟨[], rest, by simp [heq]⟩, hfound⟩
    · exact ⟨found, List.infix_cons_iff.2 (.inr hinfix), hfound⟩

theorem afterFirst?_cons (tag t : Text) (c : Char) :
    afterFirst? tag (c :: t) =
      match afterTag? tag (c :: t) with
      | some rest => some rest
      | none => afterFirst? tag t := rfl

theorem beforeFirst?_cons (tag t : Text) (c : Char) :
    beforeFirst? tag (c :: t) =
      match afterTag? tag (c :: t) with
      | some _ => some []
      | none => (beforeFirst? tag t).map (c :: ·) := rfl

/-- The search finds something exactly if the tag occurs. -/
theorem isSome_afterFirst?_iff {tag t : Text} : (afterFirst? tag t).isSome ↔ Occurs tag t := by
  induction t with
  | nil =>
      unfold afterFirst?
      rw [Option.isSome_iff_exists]
      constructor
      · rintro ⟨rest, hrest⟩
        obtain ⟨found, hfound, heq⟩ := afterTag?_eq_some_iff.1 hrest
        exact ⟨found, ⟨[], rest, by simp [heq]⟩, hfound⟩
      · rintro ⟨found, hinfix, hfound⟩
        obtain rfl := List.infix_nil.1 hinfix
        exact ⟨[], afterTag?_eq_some_iff.2 ⟨[], hfound, rfl⟩⟩
  | cons c t ih =>
      rw [occurs_cons_iff, ← ih, afterFirst?_cons]
      cases hhere : afterTag? tag (c :: t) with
      | none => simp
      | some rest => simp

instance (tag t : Text) : Decidable (Occurs tag t) :=
  decidable_of_iff _ isSome_afterFirst?_iff

/-! ## Angle brackets -/

/-- A text has its only angle brackets at its two ends. -/
def Bracketed (t : Text) : Prop :=
  ∃ body, t = '<' :: (body ++ ['>']) ∧ '<' ∉ body ∧ '>' ∉ body

theorem toLower_cases (c : Char) : c.toLower = c ∨ 97 ≤ c.toLower.toNat := by
  unfold Char.toLower
  split
  · rename_i hc
    have hlow := UInt32.le_iff_toNat_le.1 hc.1
    have hhigh := UInt32.le_iff_toNat_le.1 hc.2
    right
    simp only [Char.toNat, UInt32.toNat_add] at hlow hhigh ⊢
    simp at hlow hhigh ⊢
    omega
  · exact .inl rfl

section Brackets

variable {b : Char} (hb : b = '<' ∨ b = '>')

include hb

/-- Only an angle bracket reads as that bracket, and it reads as nothing else. -/
theorem readsAs_bracket {p c : Char} (h : readsAs p c = true) : b = c ↔ b = p := by
  have hsmall : b.toNat < 97 ∧ b ≠ 's' ∧ b ≠ 'k' := by rcases hb with rfl | rfl <;> decide
  have hlower : b.toLower = b := by rcases hb with rfl | rfl <;> decide
  simp only [readsAs, Bool.or_eq_true, Bool.and_eq_true, beq_iff_eq] at h
  constructor
  · rintro rfl
    rcases h with (h | ⟨_, h⟩) | ⟨_, h⟩
    · exact hlower.symm.trans h
    · omega
    · omega
  · rintro rfl
    rcases h with (h | ⟨h, _⟩) | ⟨h, _⟩
    · rcases toLower_cases c with hc | hc
      · exact h.symm.trans hc
      · rw [h] at hc
        omega
    · exact absurd h hsmall.2.1
    · exact absurd h hsmall.2.2

theorem ReadsTag.mem_bracket_iff {tag t : Text} (h : ReadsTag tag t) : b ∈ t ↔ b ∈ tag := by
  induction h with
  | nil => rfl
  | cons hc _ ih => rw [List.mem_cons, List.mem_cons, ih, readsAs_bracket hb hc]

end Brackets

theorem ReadsTag.exists_of_append {first second t : Text} (h : ReadsTag (first ++ second) t) :
    ∃ x y, t = x ++ y ∧ ReadsTag first x ∧ ReadsTag second y := by
  induction first generalizing t with
  | nil => exact ⟨[], t, rfl, .nil, h⟩
  | cons p first ih =>
      cases h with
      | cons hc h =>
          obtain ⟨x, y, rfl, hx, hy⟩ := ih h
          exact ⟨_ :: x, y, rfl, .cons hc hx, hy⟩

/-- What reads as a tag has its angle brackets where the tag has them. -/
theorem ReadsTag.bracketed {tag t : Text} (h : ReadsTag tag t) (htag : Bracketed tag) :
    Bracketed t := by
  obtain ⟨body, rfl, hopen, hclose⟩ := htag
  cases h with
  | @cons _ c _ t hc h =>
      obtain ⟨x, y, rfl, hx, hy⟩ := ReadsTag.exists_of_append h
      obtain rfl := (readsAs_bracket (.inl rfl) hc).2 rfl
      cases hy with
      | @cons _ d _ y hd hy =>
          cases hy
          obtain rfl := (readsAs_bracket (.inr rfl) hd).2 rfl
          refine ⟨x, rfl, ?_, ?_⟩
          · rwa [ReadsTag.mem_bracket_iff (.inl rfl) hx]
          · rwa [ReadsTag.mem_bracket_iff (.inr rfl) hx]

/-! ## Places that no tag goes across -/

/-- Between two texts a tag ends or begins, unless one of them is empty. -/
def Apart (u v : Text) : Prop :=
  (∀ c ∈ u.getLast?, c = '>') ∨ ∀ c ∈ v.head?, c = '<'

theorem Bracketed.head?_eq {t : Text} (h : Bracketed t) : t.head? = some '<' := by
  obtain ⟨body, rfl, _⟩ := h
  rfl

theorem Bracketed.getLast?_eq {t : Text} (h : Bracketed t) : t.getLast? = some '>' := by
  obtain ⟨body, rfl, _⟩ := h
  rw [← List.cons_append, List.getLast?_concat]

theorem Bracketed.apart_left {u : Text} (h : Bracketed u) (v : Text) : Apart u v := by
  left
  intro c hc
  rw [h.getLast?_eq] at hc
  exact (Option.some.inj hc).symm

theorem Bracketed.apart_right {v : Text} (h : Bracketed v) (u w : Text) : Apart u (v ++ w) := by
  right
  intro c hc
  rw [List.head?_append, h.head?_eq] at hc
  exact (Option.some.inj hc).symm

/-- A bracketed text has other characters where it is cut in two. -/
theorem Bracketed.not_apart {x y : Text} (h : Bracketed (x ++ y)) (hx : x ≠ []) (hy : y ≠ []) :
    ¬ Apart x y := by
  obtain ⟨body, heq, hopen, hclose⟩ := h
  obtain ⟨c, x, rfl⟩ := List.exists_cons_of_ne_nil hx
  obtain ⟨y, d, rfl⟩ : ∃ y' d, y = y' ++ [d] :=
    ⟨y.dropLast, y.getLast hy, (List.dropLast_concat_getLast hy).symm⟩
  obtain rfl := (List.cons.inj heq).1
  have hbody : x ++ y = body ∧ [d] = ['>'] := by
    have htail : (x ++ y) ++ [d] = body ++ ['>'] := by simpa using (List.cons.inj heq).2
    exact List.append_inj' htail rfl
  rintro (hlast | hhead)
  · -- The part in front ends in a bracket, so that bracket is within the body.
    have hmem : '>' ∈ x := by
      cases hx' : x.getLast? with
      | none => simp_all
      | some e =>
          have he : e = '>' := hlast e (by simp [List.getLast?_cons, hx'])
          exact he ▸ List.mem_of_getLast? hx'
    exact hclose (hbody.1 ▸ List.mem_append_left y hmem)
  · -- The part behind begins with a bracket, so that bracket is within the body.
    have hmem : '<' ∈ y ++ [d] := by
      cases hy' : (y ++ [d]).head? with
      | none => simp at hy'
      | some e =>
          have he : e = '<' := hhead e hy'
          exact he ▸ List.mem_of_head? hy'
    rw [hbody.2, List.mem_append] at hmem
    have hmem : '<' ∈ y := hmem.resolve_right (by decide)
    exact hopen (hbody.1 ▸ List.mem_append_right x hmem)

theorem Apart.of_parts {u v x y : Text} (h : Apart u v) (hx : x <:+ u) (hy : y <+: v) :
    Apart x y := by
  rcases h with h | h
  · left
    intro c hc
    obtain ⟨before, rfl⟩ := hx
    refine h c ?_
    rw [List.getLast?_append, hc]
    rfl
  · right
    intro c hc
    obtain ⟨after, rfl⟩ := hy
    refine h c ?_
    rw [List.head?_append, hc]
    rfl

theorem occurs_append_iff {tag u v : Text} (htag : Bracketed tag) (hapart : Apart u v) :
    Occurs tag (u ++ v) ↔ Occurs tag u ∨ Occurs tag v := by
  constructor
  · rintro ⟨found, ⟨before, after, heq⟩, hfound⟩
    rw [List.append_assoc] at heq
    rcases List.append_eq_append_iff.1 heq with ⟨x, hu, hrest⟩ | ⟨x, _, hv⟩
    · rcases List.append_eq_append_iff.1 hrest with ⟨y, hx, _⟩ | ⟨y, hx, hv⟩
      · exact .inl ⟨found, ⟨before, y, by rw [hu, hx, List.append_assoc]⟩, hfound⟩
      · -- The piece is cut in two by the place between the texts, unless a part is empty.
        by_cases hxne : x = []
        · have hsuffix : found = y := by rw [hx, hxne, List.nil_append]
          exact .inr ⟨found, ⟨[], after, by rw [hv, hsuffix, List.nil_append]⟩, hfound⟩
        by_cases hyne : y = []
        · have hprefix : found = x := by rw [hx, hyne, List.append_nil]
          exact .inl ⟨found, ⟨before, [], by rw [hu, hprefix, List.append_nil]⟩, hfound⟩
        have hcut : Apart x y := hapart.of_parts ⟨before, hu.symm⟩ ⟨after, hv.symm⟩
        have hbracketed := hfound.bracketed htag
        rw [hx] at hbracketed
        exact absurd hcut (hbracketed.not_apart hxne hyne)
    · exact .inr ⟨found, ⟨x, after, by rw [hv, List.append_assoc]⟩, hfound⟩
  · rintro (⟨found, hinfix, hfound⟩ | ⟨found, hinfix, hfound⟩)
    · exact ⟨found, hinfix.trans (List.prefix_append u v).isInfix, hfound⟩
    · exact ⟨found, hinfix.trans (List.suffix_append u v).isInfix, hfound⟩

/-! ## The first occurrence -/

section First

variable {tag u found rest : Text}

/-- No tag begins in a text without the tag if a tag stands behind it. -/
theorem afterTag?_eq_none {c : Char} (htag : Bracketed tag) (hnone : ¬ Occurs tag (c :: u))
    (hfound : ReadsTag tag found) : afterTag? tag (c :: (u ++ (found ++ rest))) = none := by
  cases hsome : afterTag? tag (c :: (u ++ (found ++ rest))) with
  | none => rfl
  | some after =>
      exfalso
      obtain ⟨here, hhere, heq⟩ := afterTag?_eq_some_iff.1 hsome
      rw [← List.cons_append] at heq
      rcases List.append_eq_append_iff.1 heq with ⟨x, hx, hafter⟩ | ⟨x, hx, _⟩
      · by_cases hxne : x = []
        · have hwhole : here = c :: u := by rw [hx, hxne, List.append_nil]
          exact hnone ⟨here, ⟨[], [], by rw [hwhole, List.append_nil, List.nil_append]⟩, hhere⟩
        · have hcut : Apart (c :: u) x :=
            ((hfound.bracketed htag).apart_right (c :: u) rest).of_parts
              (List.suffix_refl _) ⟨after, hafter.symm⟩
          have hbracketed := hhere.bracketed htag
          rw [hx] at hbracketed
          exact hbracketed.not_apart (List.cons_ne_nil c u) hxne hcut
      · exact hnone ⟨here, ⟨[], x, hx.symm⟩, hhere⟩

/-- The searches stop at a tag that no other stands in front of. -/
theorem first_append (htag : Bracketed tag) (hnone : ¬ Occurs tag u)
    (hfound : ReadsTag tag found) :
    afterFirst? tag (u ++ (found ++ rest)) = some rest ∧
      beforeFirst? tag (u ++ (found ++ rest)) = some u := by
  induction u with
  | nil =>
      have hhere : afterTag? tag (found ++ rest) = some rest :=
        afterTag?_eq_some_iff.2 ⟨found, hfound, rfl⟩
      obtain ⟨body, rfl, _⟩ := hfound.bracketed htag
      rw [List.cons_append] at hhere
      rw [List.nil_append, List.cons_append, afterFirst?_cons, beforeFirst?_cons, hhere]
      exact ⟨rfl, rfl⟩
  | cons c u ih =>
      have htail : ¬ Occurs tag u := fun h => hnone (occurs_cons_iff.2 (.inr h))
      obtain ⟨hafter, hbefore⟩ := ih htail
      rw [List.cons_append, afterFirst?_cons, beforeFirst?_cons,
        afterTag?_eq_none htag hnone hfound]
      exact ⟨hafter, by rw [hbefore]; rfl⟩

end First

/-- The block between the first tags is what stands between them. -/
theorem innerText?_append {tags : TagPair} {before opening inner closing after : Text}
    (hopening : Bracketed tags.opening) (hclosing : Bracketed tags.closing)
    (hbefore : ¬ Occurs tags.opening before) (hinner : ¬ Occurs tags.closing inner)
    (hopen : ReadsTag tags.opening opening) (hclose : ReadsTag tags.closing closing) :
    innerText? tags (before ++ (opening ++ (inner ++ (closing ++ after)))) = some inner := by
  have hfirst : afterFirst? tags.opening (before ++ (opening ++ (inner ++ (closing ++ after)))) =
      some (inner ++ (closing ++ after)) := (first_append hopening hbefore hopen).1
  rw [innerText?, hfirst]
  exact (first_append hclosing hinner hclose).2

theorem innerText?_eq_none {tags : TagPair} {content : Text}
    (h : ¬ Occurs tags.opening content) : innerText? tags content = none := by
  have hnone : afterFirst? tags.opening content = none := by
    rw [← isSome_afterFirst?_iff] at h
    exact Option.not_isSome_iff_eq_none.1 h
  rw [innerText?, hnone]
  rfl

end Sections

end NgFile
