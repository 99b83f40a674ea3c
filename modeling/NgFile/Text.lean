/-!
# Text

Texts are lists of Unicode scalar values, so positions count characters and a
slice of a text is a sublist of it.  This module holds the operations that the
rest of the library performs on whole texts: trimming, cutting, joining and
slicing, each with the lemmas that pin it down.
-/

namespace NgFile

abbrev Text := List Char

instance : Coe String Text := ⟨String.toList⟩

namespace Text

def graveAccent : Char := Char.ofNat 0x60

/-- The Unicode property `White_Space`. -/
def isBlank (c : Char) : Bool :=
  let n := c.toNat
  (9 ≤ n && n ≤ 13) || n == 0x20 || n == 0x85 || n == 0xA0 || n == 0x1680 ||
    (0x2000 ≤ n && n ≤ 0x200A) || n == 0x2028 || n == 0x2029 || n == 0x202F ||
    n == 0x205F || n == 0x3000

def trimStartBy (p : Char → Bool) (t : Text) : Text :=
  t.dropWhile p

def trimEndBy (p : Char → Bool) : Text → Text
  | [] => []
  | c :: rest =>
      match trimEndBy p rest with
      | [] => if p c then [] else [c]
      | kept => c :: kept

def trimBy (p : Char → Bool) (t : Text) : Text :=
  trimEndBy p (trimStartBy p t)

def trimEnd (t : Text) : Text :=
  trimEndBy isBlank t

def trim (t : Text) : Text :=
  trimBy isBlank t

@[simp] theorem trimEndBy_nil (p : Char → Bool) : trimEndBy p [] = [] := rfl

theorem trimEndBy_concat_of_pos (p : Char → Bool) (t : Text) {c : Char} (hc : p c = true) :
    trimEndBy p (t ++ [c]) = trimEndBy p t := by
  induction t with
  | nil => simp [trimEndBy, hc]
  | cons d rest ih => simp [trimEndBy, ih]

theorem trimEndBy_concat_of_neg (p : Char → Bool) (t : Text) {c : Char} (hc : p c = false) :
    trimEndBy p (t ++ [c]) = t ++ [c] := by
  induction t with
  | nil => simp [trimEndBy, hc]
  | cons d rest ih =>
      simp only [List.cons_append, trimEndBy, ih]
      cases rest <;> rfl

/-- The characters that `trimEndBy` removes all satisfy the predicate. -/
theorem exists_eq_trimEndBy_append (p : Char → Bool) (t : Text) :
    ∃ tail, t = trimEndBy p t ++ tail ∧ ∀ c ∈ tail, p c = true := by
  induction t with
  | nil => exact ⟨[], by simp⟩
  | cons c rest ih =>
      obtain ⟨tail, heq, htail⟩ := ih
      unfold trimEndBy
      cases hkept : trimEndBy p rest with
      | nil =>
          rw [hkept] at heq
          by_cases hc : p c
          · refine ⟨c :: tail, by simpa [hc] using heq, ?_⟩
            intro d hd
            rcases List.mem_cons.1 hd with rfl | hd
            · exact hc
            · exact htail d hd
          · exact ⟨tail, by simpa [hc] using heq, htail⟩
      | cons k ks =>
          rw [hkept] at heq
          exact ⟨tail, by simpa using heq, htail⟩

theorem trimEndBy_append_of_all (p : Char → Bool) (t : Text) {tail : Text}
    (h : ∀ c ∈ tail, p c = true) : trimEndBy p (t ++ tail) = trimEndBy p t := by
  induction tail generalizing t with
  | nil => rw [List.append_nil]
  | cons c tail ih =>
      rw [List.append_cons, ih _ fun d hd => h d (List.mem_cons_of_mem c hd)]
      exact trimEndBy_concat_of_pos p t (h c List.mem_cons_self)

theorem trimEndBy_of_getLast? (p : Char → Bool) {t : Text}
    (h : ∀ c ∈ t.getLast?, p c = false) : trimEndBy p t = t := by
  cases hlast : t.getLast? with
  | none => rw [List.getLast?_eq_none_iff.1 hlast, trimEndBy_nil]
  | some c =>
      obtain ⟨before, rfl⟩ := List.getLast?_eq_some_iff.1 hlast
      exact trimEndBy_concat_of_neg p before (h c hlast)

/-- The last character that `trimEndBy` keeps does not satisfy the predicate. -/
theorem getLast?_trimEndBy (p : Char → Bool) (t : Text) :
    ∀ c ∈ (trimEndBy p t).getLast?, p c = false := by
  induction t with
  | nil => simp
  | cons d rest ih =>
      unfold trimEndBy
      cases hkept : trimEndBy p rest with
      | nil =>
          cases hd : p d <;> simp [hd]
      | cons k ks =>
          rw [hkept] at ih
          simpa only [List.getLast?_cons_cons] using ih

theorem trimBy_of_all (p : Char → Bool) {t : Text} (h : ∀ c ∈ t, p c = true) :
    trimBy p t = [] := by
  have hdrop : (t ++ []).dropWhile p = [] := List.dropWhile_append_of_pos h
  rw [List.append_nil] at hdrop
  rw [trimBy, trimStartBy, hdrop, trimEndBy_nil]

/-- A text whose characters are all kept is left of what is dropped around it. -/
theorem trimBy_padded (p : Char → Bool) {before t after : Text}
    (hbefore : ∀ c ∈ before, p c = true) (ht : ∀ c ∈ t, p c = false)
    (hafter : ∀ c ∈ after, p c = true) : trimBy p (before ++ t ++ after) = t := by
  rw [trimBy, trimStartBy, List.append_assoc, List.dropWhile_append_of_pos hbefore]
  cases t with
  | nil => exact trimBy_of_all p hafter
  | cons c rest =>
      rw [List.cons_append, List.dropWhile_cons_of_neg (by simp [ht c List.mem_cons_self]),
        ← List.cons_append, trimEndBy_append_of_all p _ hafter]
      exact trimEndBy_of_getLast? p fun d hd => ht d (List.mem_of_getLast? hd)

theorem mem_trimBy {p : Char → Bool} {t : Text} {c : Char} (hc : c ∈ t) (hp : p c = false) :
    c ∈ trimBy p t := by
  have hstart : c ∈ trimStartBy p t := by
    rw [← List.takeWhile_append_dropWhile (p := p) (l := t), List.mem_append] at hc
    refine hc.resolve_left fun hfront => ?_
    have htrue := List.all_eq_true.1 List.all_takeWhile c hfront
    simp [hp] at htrue
  obtain ⟨tail, heq, htail⟩ := exists_eq_trimEndBy_append p (trimStartBy p t)
  rw [heq, List.mem_append] at hstart
  refine hstart.resolve_right fun hmem => ?_
  simp [htail c hmem] at hp

def afterLead? : Text → Text → Option Text
  | [], t => some t
  | _ :: _, [] => none
  | a :: lead, c :: rest => if a = c then afterLead? lead rest else none

theorem afterLead?_eq_some_iff {lead t rest : Text} :
    afterLead? lead t = some rest ↔ t = lead ++ rest := by
  induction lead generalizing t with
  | nil => simp [afterLead?]
  | cons a lead ih =>
      cases t with
      | nil => simp [afterLead?]
      | cons c t =>
          by_cases h : a = c
          · subst h
            simp [afterLead?, ih]
          · simp [afterLead?, h, Ne.symm h]

def beginsWith (lead t : Text) : Bool :=
  (afterLead? lead t).isSome

def finishesWith (tail t : Text) : Bool :=
  beginsWith tail.reverse t.reverse

theorem beginsWith_iff {lead t : Text} : beginsWith lead t = true ↔ lead <+: t := by
  rw [beginsWith, Option.isSome_iff_exists]
  constructor
  · rintro ⟨rest, h⟩
    exact ⟨rest, (afterLead?_eq_some_iff.1 h).symm⟩
  · rintro ⟨rest, h⟩
    exact ⟨rest, afterLead?_eq_some_iff.2 h.symm⟩

theorem finishesWith_iff {tail t : Text} : finishesWith tail t = true ↔ tail <:+ t := by
  rw [finishesWith, beginsWith_iff, List.reverse_prefix]

/-- The pieces of a text between the occurrences of `sep`; never empty. -/
def pieces (sep : Char) : Text → List Text
  | [] => [[]]
  | c :: rest =>
      if c = sep then [] :: pieces sep rest
      else
        match pieces sep rest with
        | [] => [[c]]
        | piece :: more => (c :: piece) :: more

theorem pieces_ne_nil (sep : Char) (t : Text) : pieces sep t ≠ [] := by
  cases t with
  | nil => simp [pieces]
  | cons c rest =>
      unfold pieces
      split
      · simp
      · split <;> simp

/-- A separator cuts a text: the pieces in front of it are followed by those behind it. -/
theorem pieces_append_cons (sep : Char) (t rest : Text) :
    pieces sep (t ++ sep :: rest) = pieces sep t ++ pieces sep rest := by
  induction t with
  | nil => simp [pieces]
  | cons c t ih =>
      simp only [List.cons_append, pieces, ih]
      split
      · rfl
      · cases hp : pieces sep t with
        | nil => exact absurd hp (pieces_ne_nil sep t)
        | cons piece more => rfl

theorem pieces_of_not_mem {sep : Char} {t : Text} (h : sep ∉ t) : pieces sep t = [t] := by
  induction t with
  | nil => rfl
  | cons c rest ih =>
      rw [List.mem_cons, not_or] at h
      rw [pieces, if_neg (Ne.symm h.1), ih h.2]

theorem exists_piece_of_mem {sep c : Char} {t : Text} (hc : c ∈ t) (hne : c ≠ sep) :
    ∃ piece ∈ pieces sep t, c ∈ piece := by
  induction t with
  | nil => cases hc
  | cons d rest ih =>
      unfold pieces
      split
      · rename_i hd
        obtain ⟨piece, hpiece, hmem⟩ := ih ((List.mem_cons.1 hc).resolve_left (hd ▸ hne))
        exact ⟨piece, List.mem_cons_of_mem _ hpiece, hmem⟩
      · cases hp : pieces sep rest with
        | nil => exact absurd hp (pieces_ne_nil sep rest)
        | cons first more =>
            rcases List.mem_cons.1 hc with rfl | hrest
            · exact ⟨_, List.mem_cons_self, List.mem_cons_self⟩
            · obtain ⟨piece, hpiece, hmem⟩ := ih hrest
              rw [hp] at hpiece
              rcases List.mem_cons.1 hpiece with rfl | hmore
              · exact ⟨_, List.mem_cons_self, List.mem_cons_of_mem _ hmem⟩
              · exact ⟨piece, List.mem_cons_of_mem _ hmore, hmem⟩

def joinWith (sep : Text) : List Text → Text
  | [] => []
  | [t] => t
  | t :: more => t ++ sep ++ joinWith sep more

/-- The characters from position `start` up to, but not including, `stop`. -/
def slice (t : Text) (start stop : Nat) : Text :=
  (t.drop start).take (stop - start)

theorem slice_append_middle (before middle after : Text) :
    slice (before ++ (middle ++ after)) before.length (before.length + middle.length) = middle := by
  simp [slice]

theorem slice_append_left {front : Text} {start stop : Nat} (hstop : stop ≤ front.length)
    (rest : Text) : slice (front ++ rest) start stop = slice front start stop := by
  unfold slice
  by_cases hstart : start ≤ front.length
  · rw [List.drop_append_of_le_length hstart, List.take_append_of_le_length]
    rw [List.length_drop]
    omega
  · have hempty : stop - start = 0 := by omega
    rw [hempty, List.take_zero, List.take_zero]

def ofNat (n : Nat) : Text :=
  Nat.toDigits 10 n

def hexOfNat (n : Nat) : Text :=
  Nat.toDigits 16 n

def replicated (n : Nat) (t : Text) : Text :=
  (List.replicate n t).flatten

def hexDigit? (c : Char) : Option Nat :=
  let n := c.toNat
  if 48 ≤ n && n ≤ 57 then some (n - 48)
  else if 97 ≤ n && n ≤ 102 then some (n - 87)
  else if 65 ≤ n && n ≤ 70 then some (n - 55)
  else none

end Text

end NgFile
